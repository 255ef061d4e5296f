import Lending.Record
import Mathlib

/-!
# Exact splits

A schedule carries its principal to the last minor unit, in lines that are numbered from 1 and due
month by month.

* `Splits`: what the lines of a schedule are, said without the split.
* `plan_splits`: every schedule that is planned is such a split.
* `Obligation.draft_ok`: the draft of an obligation has the lines that are planned from its start.
-/

namespace Lending

/-- The lines carry the principal over `wanted` months from `start`, but in no more lines than it
has minor units. -/
structure Splits (principal : Amount) (wanted : UInt32) (start : Date) (lines : List Line) :
    Prop where
  sequences : (lines.map fun line => line.sequence.toNat) = List.range' 1 lines.length
  total : (lines.map fun line => line.amount.toNat).sum = principal.toNat
  dueDates : ∀ line ∈ lines, line.dueDate = start.addMonths line.sequence.toNat ∧
    line.dueDate.monthIndex = start.monthIndex + line.sequence.toNat
  length : lines.length = min principal.toNat wanted.toNat

/-- The number of installments that is asked for, before it is capped. -/
def Strategy.wanted (strategy : Strategy) (principal : Amount) : UInt32 :=
  match strategy with
  | .tiered tiers => tiers.countFor principal
  | .fixedTerm months => months

theorem Strategy.toNat_count (strategy : Strategy) (principal : Amount) :
    (strategy.count principal).toNat = min principal.toNat (strategy.wanted principal).toNat := by
  have hcount : strategy.count principal = if (strategy.wanted principal).toNat ≤ principal.toNat
      then strategy.wanted principal else principal.value.toUInt32 := rfl
  rw [hcount]
  split
  · rename_i hle
    rw [Nat.min_eq_right hle]
  · rename_i hlt
    have hbound := (strategy.wanted principal).toNat_lt
    rw [Nat.min_eq_left (by omega), UInt64.toNat_toUInt32]
    exact Nat.mod_eq_of_lt (by simp only [Amount.toNat] at hlt; omega)

theorem Tiers.countFor_pos (tiers : Tiers) (amount : Amount) :
    0 < (tiers.countFor amount).toNat := by
  have hne : tiers.countFor amount ≠ 0 := by
    have hpositive := tiers.positive
    simp only [countsPositive, Bool.and_eq_true, decide_eq_true_eq, List.all_eq_true] at hpositive
    obtain ⟨hfallback, hbands⟩ := hpositive
    unfold countFor
    split
    · rename_i tier hfind
      exact hbands tier (List.mem_of_find?_eq_some hfind)
    · exact hfallback
  exact Nat.pos_of_ne_zero fun hzero => hne (UInt32.toNat_inj.mp hzero)

/-! ## Shares -/

/-- All lines but the last carry equal shares, and the last carries what is missing. -/
theorem sum_shares {principal count : Nat} (pos : 0 < count) :
    ((List.range' 1 count).map fun k =>
      if k = count then lastShareOf principal count else shareOf principal count).sum =
      principal := by
  obtain ⟨n, rfl⟩ : ∃ n, count = n + 1 := ⟨count - 1, by omega⟩
  have hequal : ((List.range' 1 n).map fun k =>
      if k = n + 1 then lastShareOf principal (n + 1) else shareOf principal (n + 1)) =
      List.replicate n (shareOf principal (n + 1)) := by
    refine List.eq_replicate_iff.mpr ⟨by simp, ?_⟩
    intro share hshare
    obtain ⟨k, hk, rfl⟩ := List.mem_map.mp hshare
    rw [List.mem_range'_1] at hk
    exact if_neg (by omega)
  have hmul : n * shareOf principal (n + 1) ≤ principal := by
    have hdiv := Nat.div_mul_le_self principal (n + 1)
    rw [Nat.mul_succ, Nat.mul_comm] at hdiv
    exact Nat.le_trans (Nat.le_add_right ..) hdiv
  rw [List.range'_1_concat, List.map_append, List.sum_append, hequal, List.sum_replicate_nat]
  simp only [Nat.add_comm 1 n, List.map_cons, if_true, List.map_nil, List.sum_cons, List.sum_nil,
    lastShareOf, Nat.add_sub_cancel]
  rw [Nat.mul_comm (shareOf _ _) n]
  omega

/-! ## Months -/

theorem Date.monthIndex_addMonths {d : Date} {count : Nat} (h : count ≤ d.monthsLeft) :
    (d.addMonths count).monthIndex = d.monthIndex + count := by
  have hlast := d.monthIndex_le
  simp only [Date.monthsLeft] at h
  simp only [Date.addMonths, Date.monthIndex, Nat.add_sub_cancel] at *
  omega

/-! ## Lines -/

section Lines

variable {principal : Amount} {start : Date}

theorem toNat_amount_lineOf {count : Nat} (pos : 0 < count) (le : count ≤ principal.toNat)
    (k : Nat) : (lineOf principal count pos le start k).amount.toNat =
      if k = count then lastShareOf principal.toNat count else shareOf principal.toNat count := by
  unfold lineOf
  dsimp only
  split <;> exact Amount.toNat_ofNat ..

theorem buildLines_splits {count wanted : UInt32} {lines : List Line}
    (hcount : count.toNat = min principal.toNat wanted.toNat)
    (h : buildLines principal count start = .ok lines) : Splits principal wanted start lines := by
  unfold buildLines at h
  split at h
  · rename_i hfits
    split at h
    · rename_i hleft
      obtain rfl := Except.ok.inj h
      have hsequence : ∀ k ∈ List.range' 1 count.toNat, (UInt32.ofNat k).toNat = k := by
        intro k hk
        have hbound := count.toNat_lt
        rw [List.mem_range'_1] at hk
        exact Nat.mod_eq_of_lt (by omega)
      refine ⟨?_, ?_, ?_, by simp [hcount]⟩
      · rw [List.map_map, List.length_map, List.length_range']
        exact (List.map_congr_left hsequence).trans (List.map_id' _)
      · rw [List.map_map]
        simp only [Function.comp_def, toNat_amount_lineOf]
        exact sum_shares hfits.1
      · intro line hline
        obtain ⟨k, hk, rfl⟩ := List.mem_map.mp hline
        have hk' := List.mem_range'_1.mp hk
        simp only [lineOf, hsequence k hk, true_and]
        exact Date.monthIndex_addMonths (by omega)
    · cases h
  · cases h

theorem plan_splits {strategy : Strategy} {lines : List Line}
    (h : strategy.plan principal start = .ok lines) :
    Splits principal (strategy.wanted principal) start lines :=
  buildLines_splits (strategy.toNat_count principal) h

end Lines

/-! ## Drafts -/

theorem Obligation.draft_ok {o : Obligation} {tiers : Tiers} {draft : List Installment}
    (h : o.draft tiers = .ok draft) :
    ∃ moment lines, o.startedAt = some moment ∧
      (o.strategy tiers).plan o.principal moment.date = .ok lines ∧
      draft = lines.map (entryOf o.owner) := by
  unfold Obligation.draft Obligation.start at h
  cases hstarted : o.startedAt with
  | none => rw [hstarted] at h; cases h
  | some moment =>
    cases hplan : (o.strategy tiers).plan o.principal moment.date with
    | error cause => simp only [hstarted, bind, Except.bind, hplan] at h; cases h
    | ok lines =>
      simp only [hstarted, bind, Except.bind, hplan, pure, Except.pure, Except.ok.injEq] at h
      exact ⟨moment, lines, rfl, hplan, h.symm⟩

end Lending
