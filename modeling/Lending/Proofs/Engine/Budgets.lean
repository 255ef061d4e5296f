import Lending.Engine.Deadline
import Mathlib

/-!
# Work under one deadline

Pieces of work are waited for one after another under one deadline. A piece is begun only before the
deadline, it is done if it is over no later than that, and a check at the deadline fails. So a piece
that is over just at the deadline is the last one that is done. The time goes on with the work until
it comes to the deadline, and there it stands still.

* `Deadline.watch`, `wait_eq_watch`: a wait looks at the work before it looks at the clock.
* `Deadline.series`: pieces of work, each with its answer, the time, and a check afterwards.
* `getElem?_series_within`: what comes of a piece, by how long the pieces up to it take.
* `AdmitsPrefix`: the pieces that are done are the first ones, up to the deadline.
* `series_admits`: so it is with every deadline, and without one all work is done.
-/

namespace Lending

/-- What comes of a piece of work that is waited for under a deadline. -/
structure Waited where
  answer : Except Failure Unit
  /-- When the answer is there. -/
  time : Nat
  /-- What a check of the deadline says then. -/
  check : Except Failure Unit

/-- What comes of a piece of work under a deadline `budget` milliseconds after `start`. The work up
to the piece takes `begun` milliseconds from `start` on, and `ended` with the piece itself. -/
def Waited.within (start budget begun ended : Nat) : Waited where
  answer := if begun < budget ∧ ended ≤ budget then .ok () else .error .timeout
  time := start + min ended budget
  check := if min ended budget < budget then .ok () else .error .timeout

/-- The same piece, seen from the time when some work before it is over. -/
theorem Waited.within_later (start budget work begun ended : Nat) :
    Waited.within (start + min work budget) (budget - work) begun ended =
      .within start budget (work + begun) (work + ended) := by
  have hanswer : begun < budget - work ∧ ended ≤ budget - work ↔
      work + begun < budget ∧ work + ended ≤ budget := by omega
  have htime : start + min work budget + min ended (budget - work) =
      start + min (work + ended) budget := by omega
  have hcheck : min ended (budget - work) < budget - work ↔
      min (work + ended) budget < budget := by omega
  simp only [within, hanswer, htime, hcheck]

section Late

variable {start budget begun ended : Nat}

theorem Waited.within_timeout :
    (Waited.within start budget begun ended).answer = .error .timeout ↔
      ¬(begun < budget ∧ ended ≤ budget) := by
  unfold within
  split <;> simp_all

/-- Whatever times out does so at the deadline, and there a check fails. -/
theorem Waited.within_late (hle : begun ≤ ended) (hlate : ¬(begun < budget ∧ ended ≤ budget)) :
    Waited.within start budget begun ended =
      ⟨.error .timeout, start + budget, .error .timeout⟩ := by
  have hended : min ended budget = budget := by omega
  rw [within, if_neg hlate, hended, if_neg (Nat.lt_irrefl _)]

end Late

namespace Deadline

/-! ## Looking at the work -/

/-- Work that is ready at `finish`, looked at from `now` on: first at whether it is ready, then at
whether it is time to give up, and if neither is so, again a millisecond later. -/
def watch (finish moment now : Nat) : Bool × Nat :=
  if finish ≤ now then (true, now)
  else if moment ≤ now then (false, now)
  else watch finish moment (now + 1)
termination_by moment - now

theorem watch_eq (finish moment now : Nat) :
    watch finish moment now =
      if finish ≤ max moment now then (true, max finish now) else (false, max moment now) := by
  fun_induction watch finish moment now with
  | case1 now hready =>
    have hle : finish ≤ max moment now := by omega
    rw [if_pos hle, Nat.max_eq_right hready]
  | case2 now hready hlate =>
    have hle : ¬finish ≤ max moment now := by omega
    rw [if_neg hle, Nat.max_eq_right hlate]
  | case3 now hready hlate ih =>
    have hmoment : max moment (now + 1) = max moment now := by omega
    have hfinish : max finish (now + 1) = max finish now := by omega
    rw [ih, hmoment, hfinish]

/-- A wait is such a watch, unless the deadline has expired before it begins. -/
theorem wait_eq_watch (moment now work : Nat) :
    wait ⟨some moment⟩ now work =
      if moment ≤ now then (false, now) else watch (now + work) moment now := by
  by_cases hlate : moment ≤ now
  · simp [wait, isExpired, hlate]
  · have hmoment : max moment now = moment := by omega
    simp [wait, isExpired, hlate, watch_eq, hmoment]

/-! ## One piece of work -/

section Piece

variable (start budget work : Nat)

/-- Work is done if some time is left and the work takes no more than that. -/
theorem wait_within :
    (within start budget).wait start work =
      (decide (0 < budget ∧ work ≤ budget), start + min work budget) := by
  rcases Nat.eq_zero_or_pos budget with rfl | hpos
  · simp [wait, within, isExpired]
  · have hearly : ¬start + budget ≤ start := by omega
    simp only [wait, within, isExpired, hearly, decide_false, Bool.false_eq_true, if_false,
      Nat.add_le_add_iff_left]
    by_cases hle : work ≤ budget
    · simp [hpos, hle]
    · have hge : budget ≤ work := by omega
      simp [hle, hge]

/-- The same deadline, seen from the time when the work is over or given up. -/
theorem within_later :
    within start budget = within (start + min work budget) (budget - work) := by
  simp only [within]
  congr 2
  omega

theorem check_within (elapsed : Nat) :
    (within start budget).check (start + elapsed) =
      if elapsed < budget then .ok () else .error .timeout := by
  by_cases h : elapsed < budget
  · simp [check, within, isExpired, h]
  · have hle : budget ≤ elapsed := by omega
    simp [check, within, isExpired, h, hle]

end Piece

/-! ## Piece after piece -/

/-- Pieces of work that take this long, each waited for when the one before it is over. -/
def series (d : Deadline) (now : Nat) : List Nat → List Waited
  | [] => []
  | work :: rest =>
    let (inTime, later) := d.wait now work
    ⟨if inTime then .ok () else .error .timeout, later, d.check later⟩ :: d.series later rest

@[simp]
theorem length_series (d : Deadline) (now : Nat) (works : List Nat) :
    (d.series now works).length = works.length := by
  induction works generalizing now with
  | nil => rfl
  | cons work rest ih => exact congrArg (· + 1) (ih _)

/-- What comes of a piece depends on how long the pieces before it take, and how long with it. -/
theorem getElem?_series_within (start budget : Nat) {works : List Nat} {i : Nat}
    (hi : i < works.length) :
    ((within start budget).series start works)[i]? =
      some (.within start budget (works.take i).sum (works.take (i + 1)).sum) := by
  induction works generalizing start budget i with
  | nil => cases hi
  | cons work rest ih =>
    simp only [series, wait_within, check_within]
    cases i with
    | zero => simp [Waited.within]
    | succ j =>
      -- the rest is a series of its own, under the same deadline with less time left
      rw [List.getElem?_cons_succ, within_later start budget work,
        ih _ _ (Nat.lt_of_succ_lt_succ hi), Waited.within_later]
      simp only [List.take_succ_cons, List.sum_cons]

/-- When no time is left, all pieces time out at once. -/
theorem series_expired (start : Nat) (works : List Nat) :
    (within start 0).series start works =
      List.replicate works.length ⟨.error .timeout, start, .error .timeout⟩ := by
  induction works with
  | nil => rfl
  | cons work rest ih =>
    rw [List.length_cons, List.replicate_succ, ← ih]
    have hcheck : (within start 0).check start = .error .timeout := check_within start 0 0
    simp [series, wait_within, hcheck]

/-- The pieces that are done are the first ones. -/
theorem answers_series (start budget : Nat) (works : List Nat) :
    ∃ n, ((within start budget).series start works).map Waited.answer =
      List.replicate n (.ok ()) ++ List.replicate (works.length - n) (.error .timeout) := by
  induction works generalizing start budget with
  | nil => exact ⟨0, rfl⟩
  | cons work rest ih =>
    simp only [series, wait_within, List.map_cons]
    rw [within_later start budget work]
    by_cases hdone : 0 < budget ∧ work ≤ budget
    · obtain ⟨n, hn⟩ := ih (start + min work budget) (budget - work)
      refine ⟨n + 1, ?_⟩
      rw [hn, List.length_cons, Nat.add_sub_add_right, List.replicate_succ, List.cons_append]
      simp [hdone]
    · have hnothing : budget - work = 0 := by omega
      refine ⟨0, ?_⟩
      rw [hnothing, series_expired, List.map_replicate]
      simp [hdone, List.replicate_succ]

/-- Without a deadline every piece is done. -/
theorem getElem?_series_unbounded (start : Nat) {works : List Nat} {i : Nat}
    (hi : i < works.length) :
    (unbounded.series start works)[i]? =
      some ⟨.ok (), start + (works.take (i + 1)).sum, .ok ()⟩ := by
  induction works generalizing start i with
  | nil => cases hi
  | cons work rest ih =>
    have hwait : unbounded.wait start work = (true, start + work) := rfl
    have hcheck : unbounded.check (start + work) = .ok () := rfl
    simp only [series, hwait, hcheck, if_true]
    cases i with
    | zero => simp
    | succ j =>
      rw [List.getElem?_cons_succ, ih (start + work) (Nat.lt_of_succ_lt_succ hi)]
      simp only [List.take_succ_cons, List.sum_cons, Nat.add_assoc]

end Deadline

/-! ## A prefix of the work -/

/-- What comes of pieces of work from `start` on, under a deadline `budget` milliseconds later. -/
structure AdmitsPrefix (start budget : Nat) (works : List Nat) (series : List Waited) : Prop where
  length : series.length = works.length
  /-- The pieces that are done are the first ones. -/
  done : ∃ n, series.map Waited.answer =
    List.replicate n (.ok ()) ++ List.replicate (works.length - n) (.error .timeout)
  /-- A piece is done exactly if it is begun before the deadline and over no later than that. -/
  answers : ∀ i (w : Waited), series[i]? = some w → w.answer =
    if (works.take i).sum < budget ∧ (works.take (i + 1)).sum ≤ budget then .ok ()
    else .error .timeout
  /-- Once a piece has timed out, no check succeeds, and all later pieces time out at once. -/
  expired : ∀ (i j : Nat) (w v : Waited), i ≤ j → series[i]? = some w → series[j]? = some v →
    w.answer = .error .timeout →
      v.answer = .error .timeout ∧ v.check = .error .timeout ∧ v.time = w.time
  /-- The time is that of the work so far, but never later than the deadline. -/
  times : ∀ i (w : Waited), series[i]? = some w →
    w.time = start + min (works.take (i + 1)).sum budget ∧ w.time ≤ start + budget
  checks : ∀ w ∈ series, w.check =
    if w.time - start < budget then .ok () else .error .timeout

/-- Without a deadline all work is done, and every check succeeds. -/
structure AdmitsAll (start : Nat) (works : List Nat) (series : List Waited) : Prop where
  length : series.length = works.length
  answers : ∀ i (w : Waited), series[i]? = some w →
    w = ⟨.ok (), start + (works.take (i + 1)).sum, .ok ()⟩

namespace Deadline

/-- A place in a series is a place in the work. -/
theorem lt_of_getElem?_series {d : Deadline} {now i : Nat} {works : List Nat} {w : Waited}
    (h : (d.series now works)[i]? = some w) : i < works.length := by
  obtain ⟨hi, -⟩ := List.getElem?_eq_some_iff.mp h
  rwa [length_series] at hi

theorem series_within_admits (start budget : Nat) (works : List Nat) :
    AdmitsPrefix start budget works ((within start budget).series start works) := by
  have hclosed : ∀ i (w : Waited), ((within start budget).series start works)[i]? = some w →
      w = .within start budget (works.take i).sum (works.take (i + 1)).sum := by
    intro i w hw
    rw [getElem?_series_within start budget (lt_of_getElem?_series hw)] at hw
    exact (Option.some.inj hw).symm
  refine ⟨length_series _ _ _, answers_series _ _ _, ?_, ?_, ?_, ?_⟩
  · rintro i w hw
    rw [hclosed i w hw, Waited.within]
  · intro i j w v hij hw hv hlate
    have hbegun := List.monotone_sum_take works hij
    have hended := List.monotone_sum_take works (Nat.add_le_add_right hij 1)
    have hfirst := List.monotone_sum_take works (Nat.le_add_right i 1)
    have hsecond := List.monotone_sum_take works (Nat.le_add_right j 1)
    rw [hclosed i w hw] at hlate ⊢
    have hover := Waited.within_timeout.mp hlate
    rw [hclosed j v hv, Waited.within_late hfirst hover,
      Waited.within_late hsecond fun hdone =>
        hover ⟨Nat.lt_of_le_of_lt hbegun hdone.1, Nat.le_trans hended hdone.2⟩]
    exact ⟨rfl, rfl, rfl⟩
  · rintro i w hw
    rw [hclosed i w hw]
    exact ⟨rfl, Nat.add_le_add_left (Nat.min_le_right _ _) _⟩
  · intro w hw
    obtain ⟨i, hi⟩ := List.mem_iff_getElem?.mp hw
    rw [hclosed i w hi]
    simp [Waited.within]

theorem series_unbounded_admits (start : Nat) (works : List Nat) :
    AdmitsAll start works (unbounded.series start works) := by
  refine ⟨length_series _ _ _, fun i w hw => ?_⟩
  rw [getElem?_series_unbounded start (lt_of_getElem?_series hw)] at hw
  exact (Option.some.inj hw).symm

/-- Work goes on exactly until the deadline, and without one to its end. -/
theorem series_admits (start budget : Nat) (works : List Nat) :
    AdmitsPrefix start budget works ((within start budget).series start works) ∧
      AdmitsAll start works (unbounded.series start works) :=
  ⟨series_within_admits start budget works, series_unbounded_admits start works⟩

end Deadline

end Lending
