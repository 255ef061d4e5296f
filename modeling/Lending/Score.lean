import Lending.Failure

/-!
# Credit scores

A score lies between 300 and 850. Where scores come from is a `Scorer`: one score for everyone,
scores by user, or scores drawn at random by weighted bands when no credit bureau is asked.

* `Band.drawn`: a score of the bands from two random numbers.
* `Scorer.score_weighted`: such a score is in range, so a draw never fails.
-/

namespace Lending

/-- The lowest credit score that there is. -/
def lowestScore : UInt16 := 300

/-- The highest credit score that there is. -/
def highestScore : UInt16 := 850

/-- A score in range. -/
structure CreditScore where
  value : UInt16
  inRange : lowestScore ≤ value ∧ value ≤ highestScore
  deriving DecidableEq

/-- The score of this value, refused if it is out of range. -/
def CreditScore.make (value : UInt16) : Except Failure CreditScore :=
  if h : lowestScore ≤ value ∧ value ≤ highestScore then .ok ⟨value, h⟩
  else .error (.scoreOutOfRange value)

/-- Scores from `low` to `high`, drawn `weight` times in a hundred. -/
structure Band where
  low : Nat
  high : Nat
  weight : Nat

namespace Band

/-- Poor, fair, good, very good and excellent. -/
def standard : List Band :=
  [⟨300, 579, 10⟩, ⟨580, 669, 25⟩, ⟨670, 739, 35⟩, ⟨740, 799, 20⟩, ⟨800, 850, 10⟩]

/-- The weights of the bands together. -/
def totalWeight (bands : List Band) : Nat := bands.foldr (fun band sum => band.weight + sum) 0

/-- The score that `pick`, a number below the total weight, and `roll`, any number, stand for:
`pick` chooses the band, `roll` the place in it. -/
def drawn (bands : List Band) (pick roll : Nat) : Nat :=
  match bands with
  | [] => highestScore.toNat
  | band :: rest =>
    if pick < band.weight then band.low + roll % (band.high + 1 - band.low)
    else drawn rest (pick - band.weight) roll

theorem drawn_inRange {bands : List Band} (pick roll : Nat)
    (h : ∀ band ∈ bands, 300 ≤ band.low ∧ band.low ≤ band.high ∧ band.high ≤ 850) :
    300 ≤ drawn bands pick roll ∧ drawn bands pick roll ≤ 850 := by
  induction bands generalizing pick with
  | nil => exact ⟨by simp [drawn, highestScore], by simp [drawn, highestScore]⟩
  | cons band rest ih =>
    simp only [drawn]
    split
    · have hb := h band List.mem_cons_self
      have := Nat.mod_lt roll (show 0 < band.high + 1 - band.low by omega)
      omega
    · exact ih _ fun b hb => h b (List.mem_cons_of_mem _ hb)

theorem standard_inRange :
    ∀ band ∈ standard, 300 ≤ band.low ∧ band.low ≤ band.high ∧ band.high ≤ 850 := by
  decide

end Band

/-- A stream of random numbers: the multiplier and increment of a linear congruence modulo `2 ^ 64`,
of which the upper half is used. -/
structure Dice where
  state : UInt64

/-- The next random number, and the stream after it. -/
def Dice.next (d : Dice) : Nat × Dice :=
  let state := d.state * 6364136223846793005 + 1442695040888963407
  ((state >>> 33).toNat, ⟨state⟩)

/-- Where scores come from. -/
inductive Scorer where
  /-- The score of everyone. -/
  | fixed (score : UInt16)
  /-- Scores by user, and `others` for the users without one. -/
  | byUser (scores : List (String × UInt16)) (others : UInt16)
  /-- A draw from the standard bands. -/
  | weighted (dice : Dice)

/-- The score of `user`, and the scorer for the next one. -/
def Scorer.score (user : String) : Scorer → Except Failure CreditScore × Scorer
  | .fixed score => (CreditScore.make score, .fixed score)
  | .byUser scores others =>
    (CreditScore.make ((scores.lookup user).getD others), .byUser scores others)
  | .weighted dice =>
    let (pick, dice) := dice.next
    let (roll, dice) := dice.next
    let score := Band.drawn Band.standard (pick % Band.totalWeight Band.standard) roll
    (CreditScore.make (UInt16.ofNat score), .weighted dice)

theorem CreditScore.make_ofNat {n : Nat} (h : 300 ≤ n ∧ n ≤ 850) :
    ∃ score, make (UInt16.ofNat n) = .ok score := by
  have htoNat : (UInt16.ofNat n).toNat = n :=
    UInt16.toNat_ofNat_of_lt' (Nat.lt_of_le_of_lt h.2 (by decide))
  have hin : lowestScore ≤ UInt16.ofNat n ∧ UInt16.ofNat n ≤ highestScore := by
    rw [UInt16.le_iff_toNat_le, UInt16.le_iff_toNat_le, htoNat]
    exact h
  exact ⟨⟨_, hin⟩, dif_pos hin⟩

/-- A draw from the standard bands is a score in range, whatever the dice show. -/
theorem Scorer.score_weighted (dice : Dice) (user : String) :
    ∃ score, ((weighted dice).score user).1 = .ok score :=
  CreditScore.make_ofNat (Band.drawn_inRange _ _ Band.standard_inRange)

end Lending
