import Lending.Proofs.Schedule.Split

/-!
# Every principal is split exactly

How many lines a principal is split into, and what each of them carries, for every table of tiers,
every term and every principal of 64 bits. The split is also computed in words here, of 32 bits for
the count and of 64 for the amounts, and no step of that wraps.

* `Strategy.Asks`: the number of installments that is asked for, said without a search.
* `Unwrapped`: the steps of the split on words give the numbers that they should.
* `Exact`: what each line carries.
* `buildLines_error_iff`: when a principal cannot be split into a given number of lines.
* `plan_exact`: the plan of every principal.
-/

namespace Lending

/-! ## The number that is asked for -/

/-- The number of installments that is asked for: the term, the count of the tier with the least
bound above the principal, or the fallback if no bound is above it. -/
inductive Strategy.Asks (principal : Amount) : Strategy → UInt32 → Prop
  | term {months : UInt32} (pos : 0 < months.toNat) : Asks principal (.fixedTerm months) months
  | tier {tiers : Tiers} {tier : Tier} (listed : tier ∈ tiers.bands)
      (above : principal.value < tier.below)
      (least : ∀ other ∈ tiers.bands, principal.value < other.below →
        tier.below ≤ other.below) : Asks principal (.tiered tiers) tier.count
  | fallback {tiers : Tiers} (below : ∀ tier ∈ tiers.bands, tier.below ≤ principal.value) :
      Asks principal (.tiered tiers) tiers.fallback

/-- A table of tiers, or a term of at least one month. -/
def Strategy.Usable : Strategy → Prop
  | .tiered _ => True
  | .fixedTerm months => 0 < months.toNat

theorem pairwise_of_boundsAscend {bands : List Tier} (h : boundsAscend bands = true) :
    bands.Pairwise fun a b => a.below < b.below := by
  induction bands with
  | nil => exact .nil
  | cons a rest ih =>
    cases rest with
    | nil => exact List.pairwise_singleton _ _
    | cons b rest =>
      rw [boundsAscend, Bool.and_eq_true, decide_eq_true_eq] at h
      have hrest := ih h.2
      refine .cons ?_ hrest
      intro tier htier
      rcases List.mem_cons.mp htier with rfl | htier
      · exact h.1
      · exact UInt64.lt_trans h.1 (List.rel_of_pairwise_cons hrest htier)

/-- The first tier with a bound above the principal is the one with the least such bound. -/
theorem Tiers.find?_eq_some_iff (tiers : Tiers) (principal : Amount) (tier : Tier) :
    tiers.bands.find? (fun tier => principal.value < tier.below) = some tier ↔
      tier ∈ tiers.bands ∧ principal.value < tier.below ∧
        ∀ other ∈ tiers.bands, principal.value < other.below → tier.below ≤ other.below := by
  have hascending := pairwise_of_boundsAscend tiers.ascending
  constructor
  · intro hfind
    refine ⟨List.mem_of_find?_eq_some hfind, by simpa using List.find?_some hfind, ?_⟩
    obtain ⟨-, before, after, hbands, hbefore⟩ := List.find?_eq_some_iff_append.mp hfind
    intro other hother habove
    rw [hbands, List.pairwise_append] at hascending
    rw [hbands, List.mem_append, List.mem_cons] at hother
    rcases hother with hother | rfl | hother
    · exact absurd (decide_eq_true habove) (by simpa using hbefore other hother)
    · exact UInt64.le_refl _
    · exact UInt64.le_of_lt (List.rel_of_pairwise_cons hascending.2.1 hother)
  · rintro ⟨hlisted, habove, hleast⟩
    cases hfind : tiers.bands.find? fun tier => principal.value < tier.below with
    | none => exact absurd (decide_eq_true habove) (List.find?_eq_none.mp hfind tier hlisted)
    | some found =>
      obtain ⟨hfound, before, after, hbands, hbefore⟩ := List.find?_eq_some_iff_append.mp hfind
      have hle : tier.below ≤ found.below :=
        hleast found (List.mem_of_find?_eq_some hfind) (of_decide_eq_true hfound)
      rw [hbands, List.pairwise_append] at hascending
      rw [hbands, List.mem_append, List.mem_cons] at hlisted
      rcases hlisted with hlisted | rfl | hlisted
      · exact absurd (decide_eq_true habove) (by simpa using hbefore tier hlisted)
      · rfl
      · have hlt := List.rel_of_pairwise_cons hascending.2.1 hlisted
        exact absurd (UInt64.lt_of_lt_of_le hlt hle) (UInt64.lt_irrefl _)

/-- What is asked for is what is looked up. -/
theorem Strategy.asks_iff {strategy : Strategy} {principal : Amount} {count : UInt32} :
    strategy.Asks principal count ↔ strategy.Usable ∧ count = strategy.wanted principal := by
  constructor
  · rintro (pos | ⟨listed, above, least⟩ | below)
    · exact ⟨pos, rfl⟩
    · refine ⟨trivial, ?_⟩
      rw [wanted, Tiers.countFor, (Tiers.find?_eq_some_iff ..).mpr ⟨listed, above, least⟩]
    · refine ⟨trivial, ?_⟩
      rw [wanted, Tiers.countFor, List.find?_eq_none.mpr]
      simpa using below
  · rintro ⟨husable, rfl⟩
    cases strategy with
    | fixedTerm months => exact .term husable
    | tiered tiers =>
      rw [wanted, Tiers.countFor]
      split
      · rename_i tier hfind
        obtain ⟨listed, above, least⟩ := (Tiers.find?_eq_some_iff ..).mp hfind
        exact .tier listed above least
      · rename_i hfind
        exact .fallback (by simpa using List.find?_eq_none.mp hfind)

/-- It is not zero. -/
theorem Strategy.Asks.pos {strategy : Strategy} {principal : Amount} {count : UInt32}
    (h : strategy.Asks principal count) : 0 < count.toNat := by
  obtain ⟨husable, rfl⟩ := asks_iff.mp h
  cases strategy with
  | fixedTerm months => exact husable
  | tiered tiers => exact tiers.countFor_pos principal

/-! ## Words -/

/-- What each line but the last carries, in words. -/
def shareWord (principal : Amount) (count : UInt32) : UInt64 := principal.value / count.toUInt64

/-- What the last line carries, in words. -/
def lastShareWord (principal : Amount) (count : UInt32) : UInt64 :=
  principal.value - shareWord principal count * (count - 1).toUInt64

/-- The steps of the split on words: one less than the count, the quotient, the product of both, and
the difference from the principal. None of them wraps. -/
structure Unwrapped (principal : Amount) (count : UInt32) : Prop where
  before : (count - 1).toNat = count.toNat - 1
  share : (shareWord principal count).toNat = principal.toNat / count.toNat
  product : (shareWord principal count * (count - 1).toUInt64).toNat =
    (shareWord principal count).toNat * (count - 1).toNat
  difference : (lastShareWord principal count).toNat = principal.toNat -
    (shareWord principal count * (count - 1).toUInt64).toNat
  covered : (shareWord principal count * (count - 1).toUInt64).toNat ≤ principal.toNat

/-- The shares of all lines but the last are no more than the principal. -/
theorem shareOf_mul_le (principal count : Nat) :
    shareOf principal count * (count - 1) ≤ principal := by
  have hle : shareOf principal count * (count - 1) ≤ shareOf principal count * count :=
    Nat.mul_le_mul_left _ (Nat.sub_le ..)
  exact Nat.le_trans hle (Nat.div_mul_le_self principal count)

theorem unwrapped {principal : Amount} {count : UInt32} (pos : 0 < count.toNat) :
    Unwrapped principal count := by
  have hlt := principal.toNat_lt
  have hbefore : (count - 1).toNat = count.toNat - 1 := by
    refine UInt32.toNat_sub_of_le _ _ (UInt32.le_iff_toNat_le.mpr ?_)
    exact pos
  have hshare : (shareWord principal count).toNat = shareOf principal.toNat count.toNat := by
    rw [shareWord, UInt64.toNat_div, UInt32.toNat_toUInt64]
    rfl
  have hmul := shareOf_mul_le principal.toNat count.toNat
  have hproduct : (shareWord principal count * (count - 1).toUInt64).toNat =
      (shareWord principal count).toNat * (count - 1).toNat := by
    rw [UInt64.toNat_mul, UInt32.toNat_toUInt64]
    refine Nat.mod_eq_of_lt ?_
    rw [hshare, hbefore]
    exact Nat.lt_of_le_of_lt hmul hlt
  have hcovered : (shareWord principal count * (count - 1).toUInt64).toNat ≤ principal.toNat := by
    rw [hproduct, hshare, hbefore]
    exact hmul
  exact ⟨hbefore, hshare, hproduct,
    UInt64.toNat_sub_of_le _ _ (UInt64.le_iff_toNat_le.mpr hcovered), hcovered⟩

/-- The last line carries the share and what division leaves over. -/
theorem lastShareOf_eq {principal count : Nat} (pos : 0 < count) :
    lastShareOf principal count = principal / count + principal % count := by
  have hsucc : principal / count * count =
      principal / count * (count - 1) + principal / count := by
    rw [← Nat.mul_succ, Nat.succ_eq_add_one, Nat.sub_add_cancel pos]
  rw [lastShareOf, shareOf]
  refine Nat.sub_eq_of_eq_add ?_
  calc principal = principal / count * count + principal % count :=
        (Nat.div_add_mod' principal count).symm
    _ = principal / count + principal % count + principal / count * (count - 1) := by
        rw [hsucc, Nat.add_assoc, Nat.add_comm]

/-! ## Lines -/

/-- The lines of a split into `n`. All but the last carry the quotient, and the last carries what is
missing, which is no less than the quotient and less than `n` more. -/
structure Exact (principal : Amount) (n : UInt32) (lines : List Line) : Prop where
  sequences : (lines.map fun line => line.sequence.toNat) = List.range' 1 n.toNat
  shares : ∀ line ∈ lines, line.sequence ≠ n → line.amount.toNat = principal.toNat / n.toNat
  last : ∀ line ∈ lines, line.sequence = n →
    line.amount.toNat = principal.toNat - (n.toNat - 1) * (principal.toNat / n.toNat) ∧
      principal.toNat / n.toNat ≤ line.amount.toNat ∧
      line.amount.toNat < principal.toNat / n.toNat + n.toNat
  positive : ∀ line ∈ lines, 1 ≤ line.amount.toNat
  total : (lines.map fun line => line.amount.toNat).sum = principal.toNat
  /-- The amounts are those that are computed in words. -/
  words : Unwrapped principal n ∧ ∀ line ∈ lines, line.amount.value =
    if line.sequence = n then lastShareWord principal n else shareWord principal n

/-- Each of the `count` months after the start is in the calendar. -/
def Date.Reaches (start : Date) (count : Nat) : Prop :=
  ∀ k, 1 ≤ k → k ≤ count → ∃ due : Date, due.monthIndex = start.monthIndex + k

theorem Date.reaches_iff {start : Date} {count : Nat} :
    start.Reaches count ↔ count ≤ start.monthsLeft := by
  constructor
  · intro h
    rcases Nat.eq_zero_or_pos count with rfl | hpos
    · exact Nat.zero_le _
    · obtain ⟨due, hdue⟩ := h count hpos (Nat.le_refl _)
      have hlast := due.monthIndex_le
      rw [monthsLeft]
      omega
  · intro h k _ hk
    exact ⟨start.addMonths k, monthIndex_addMonths (Nat.le_trans hk h)⟩

section Lines

variable {principal : Amount} {count : UInt32} {start : Date}

/-- The lines there are if there are any. -/
theorem buildLines_ok (pos : 0 < count.toNat) (le : count.toNat ≤ principal.toNat)
    (reaches : start.Reaches count.toNat) : buildLines principal count start =
      .ok ((List.range' 1 count.toNat).map (lineOf principal count.toNat pos le start)) := by
  rw [buildLines, dif_pos ⟨pos, le⟩, if_pos (Date.reaches_iff.mp reaches)]

/-- Lines are refused if a line would be worth nothing or be due out of range. -/
theorem buildLines_error_iff : (∃ cause, buildLines principal count start = .error cause) ↔
    count.toNat = 0 ∨ principal.toNat < count.toNat ∨ ¬start.Reaches count.toNat := by
  rw [Date.reaches_iff, buildLines]
  split
  · split
    · simp
      omega
    · simp
      omega
  · simp
    omega

/-- The request is what is invalid then. -/
theorem invalid_of_buildLines {cause : Failure}
    (h : buildLines principal count start = .error cause) : ∃ reason, cause = .invalid reason := by
  unfold buildLines at h
  split at h
  · split at h
    · cases h
    · exact ⟨_, (Except.error.inj h).symm⟩
  · exact ⟨_, (Except.error.inj h).symm⟩

theorem buildLines_exact (pos : 0 < count.toNat) (le : count.toNat ≤ principal.toNat)
    (reaches : start.Reaches count.toNat) :
    ∃ lines, buildLines principal count start = .ok lines ∧ Exact principal count lines := by
  have hwords : Unwrapped principal count := unwrapped pos
  have hsplits : Splits principal count start _ :=
    buildLines_splits (Nat.min_eq_right le).symm (buildLines_ok pos le reaches)
  refine ⟨_, buildLines_ok pos le reaches, ?_⟩
  have hlength : ((List.range' 1 count.toNat).map
      (lineOf principal count.toNat pos le start)).length = count.toNat := by simp
  have hsequences := hsplits.sequences
  rw [hlength] at hsequences
  -- a line is the last exactly if its number is the count
  have hlines : ∀ line ∈ (List.range' 1 count.toNat).map
      (lineOf principal count.toNat pos le start), line.amount.toNat =
        if line.sequence = count then lastShareOf principal.toNat count.toNat
        else shareOf principal.toNat count.toNat := by
    intro line hline
    obtain ⟨k, hk, rfl⟩ := List.mem_map.mp hline
    have hbound := count.toNat_lt
    have hk' := List.mem_range'_1.mp hk
    have hsame : (lineOf principal count.toNat pos le start k).sequence = count ↔
        k = count.toNat := by
      rw [← UInt32.toNat_inj]
      simp only [lineOf, UInt32.toNat_ofNat']
      rw [Nat.mod_eq_of_lt (by omega)]
    simp only [hsame, toNat_amount_lineOf]
  have hlastShare : lastShareOf principal.toNat count.toNat =
      principal.toNat - (count.toNat - 1) * (principal.toNat / count.toNat) := by
    rw [lastShareOf, shareOf, Nat.mul_comm]
  refine ⟨hsequences, ?_, ?_, ?_, hsplits.total, hwords, ?_⟩
  · intro line hline hother
    rw [hlines line hline, if_neg hother]
    rfl
  · intro line hline hlast
    have hmod := Nat.mod_lt principal.toNat pos
    rw [hlines line hline, if_pos hlast]
    refine ⟨hlastShare, ?_, ?_⟩ <;> rw [lastShareOf_eq pos] <;> omega
  · intro line hline
    exact line.amount.toNat_pos
  · intro line hline
    refine UInt64.toNat_inj.mp ((hlines line hline).trans ?_)
    split
    · rw [hlastShare, hwords.difference, hwords.product, hwords.share, hwords.before, Nat.mul_comm]
    · rw [hwords.share]
      rfl

end Lines

/-- Whatever the tiers or the term, the principal and the start: one number of installments is asked
for, and the plan splits the principal exactly into that many lines, or as many as it has minor
units, if they can be dated. A split into any number of lines fails exactly if there would be none,
a line would be worth nothing or be due after the end of the calendar. -/
theorem plan_exact {strategy : Strategy} (usable : strategy.Usable) (principal : Amount)
    (start : Date) :
    (∃! c, strategy.Asks principal c) ∧
    (∀ c n, strategy.Asks principal c → n.toNat = min c.toNat principal.toNat →
      start.Reaches n.toNat →
        ∃ lines, strategy.plan principal start = .ok lines ∧ Exact principal n lines) ∧
    ∀ count : UInt32,
      ((∃ cause, buildLines principal count start = .error cause) ↔
        count.toNat = 0 ∨ principal.toNat < count.toNat ∨ ¬start.Reaches count.toNat) ∧
      ∀ cause, buildLines principal count start = .error cause →
        ∃ reason, cause = .invalid reason := by
  refine ⟨⟨strategy.wanted principal, Strategy.asks_iff.mpr ⟨usable, rfl⟩, ?_⟩, ?_, ?_⟩
  · intro c hasks
    exact (Strategy.asks_iff.mp hasks).2
  · intro c n hasks hn hreaches
    have hpos : 0 < n.toNat := by
      rw [hn]
      exact Nat.lt_min.mpr ⟨hasks.pos, principal.toNat_pos⟩
    have hle : n.toNat ≤ principal.toNat := hn ▸ Nat.min_le_right ..
    obtain ⟨-, rfl⟩ := Strategy.asks_iff.mp hasks
    obtain rfl : strategy.count principal = n := by
      rw [← UInt32.toNat_inj, strategy.toNat_count, hn, Nat.min_comm]
    exact buildLines_exact hpos hle hreaches
  · intro count
    exact ⟨buildLines_error_iff, fun cause => invalid_of_buildLines⟩

/-- A day that many months do not have. -/
def Date.endOfJanuary : Date := ⟨2024, 1, 31, by decide⟩

/-- The greatest principal there is, over a term of seven months: one is left over by the division
and goes to the last line. -/
theorem plan_greatest :
    (((Strategy.fixedTerm 7).plan ⟨18446744073709551615, by decide⟩ .endOfJanuary).map
      fun lines => lines.map fun line => (line.sequence, line.amount.value)) =
        .ok [(1, 2635249153387078802), (2, 2635249153387078802), (3, 2635249153387078802),
          (4, 2635249153387078802), (5, 2635249153387078802), (6, 2635249153387078802),
          (7, 2635249153387078803)] ∧
    (∃ lines, (Strategy.fixedTerm 7).plan ⟨18446744073709551615, by decide⟩ .endOfJanuary =
      .ok lines ∧ Exact ⟨18446744073709551615, by decide⟩ 7 lines) := by
  have husable : (Strategy.fixedTerm 7).Usable := show 0 < UInt32.toNat 7 by decide
  have hplan := plan_exact husable ⟨18446744073709551615, by decide⟩ .endOfJanuary
  refine ⟨by decide +kernel, hplan.2.1 7 7 (.term (by decide)) (by decide) ?_⟩
  exact Date.reaches_iff.mpr (by decide +kernel)

end Lending
