import Lending.Proofs.Store.Archive
import Lending.Store.Contents

/-!
# The two stores answer alike

The ledger in memory and the archive over tables of texts share no code but the shapes of calls and
rows. No sequence of calls tells them apart: begun empty, they give the same results, the same
numbers and the same failures, call by call.

* `Store.Keeps`: a store that holds the rows of a ledger, in either way.
* `Store.exchanges`: calls in turn, each with its answer.
* `Store.Keeps.exchanges_eq`: stores that keep one ledger answer alike from then on.
* `Store.exchanges_opened`: an archive opened on an empty database, and an empty ledger.
-/

namespace Lending

theorem ofLedger_empty : Archive.ofLedger {} = {} := by
  simp only [Archive.ofLedger, Ledger.database, Archive.mk.injEq, Database.mk.injEq, and_true]
  funext name
  cases name <;> rfl

namespace Store

/-! ## Stores that keep a ledger -/

/-- The store holds the rows of a ledger, as they are or as texts. -/
def Keeps : Store → Ledger → Prop
  | .memory ledger, l => ledger = l
  | .durable archive, l => archive = Archive.ofLedger l

def counters : Store → Counters
  | .memory ledger => ledger.counters
  | .durable archive => archive.counters

variable {s : Store} {l : Ledger}

theorem Keeps.counters_eq (h : s.Keeps l) : s.counters = l.counters := by
  cases s <;> cases h <;> rfl

theorem Keeps.answer_error (h : s.Keeps l) (hl : l.Ordered) {call : StoreCall} {cause : Failure}
    (hanswer : l.answer call = .error cause) : s.answer call = .error cause := by
  cases s with
  | memory ledger =>
    cases h
    rw [Store.answer, hanswer]
    rfl
  | durable archive =>
    cases h
    rw [Store.answer, Archive.answer_ofLedger hl, hanswer]
    rfl

theorem Keeps.answer_ok (h : s.Keeps l) (hl : l.Ordered) {call : StoreCall} {result : call.Result}
    {l' : Ledger} (hanswer : l.answer call = .ok (result, l')) :
    ∃ s', s.answer call = .ok (result, s') ∧ s'.Keeps l' := by
  cases s with
  | memory ledger =>
    cases h
    rw [Store.answer, hanswer]
    exact ⟨_, rfl, rfl⟩
  | durable archive =>
    cases h
    rw [Store.answer, Archive.answer_ofLedger hl, hanswer]
    exact ⟨_, rfl, rfl⟩

theorem Keeps.look (h : s.Keeps l) (hl : l.Ordered) (call : StoreCall) {result : call.Result}
    {l' : Ledger} (hanswer : l.answer call = .ok (result, l')) : s.look call = .ok result := by
  obtain ⟨s', hs', -⟩ := h.answer_ok hl hanswer
  rw [Store.look, hs']
  rfl

/-- A call that changes no row leaves the store as it is. -/
theorem Keeps.answer_read (h : s.Keeps l) (hl : l.Ordered) {call : StoreCall}
    {result : call.Result} (hanswer : l.answer call = .ok (result, l)) :
    s.answer call = .ok (result, s) := by
  cases s with
  | memory ledger =>
    cases h
    rw [Store.answer, hanswer]
    rfl
  | durable archive =>
    cases h
    rw [Store.answer, Archive.answer_ofLedger hl, hanswer]
    rfl

end Store

/-! ## Calls in turn -/

/-- A store call and what it was answered with. -/
structure Exchange where
  call : StoreCall
  answer : Except Failure call.Result

namespace Store

/-- Calls that are made one after another. A call that fails leaves the store as it was. -/
def exchanges (s : Store) : List StoreCall → List Exchange
  | [] => []
  | call :: rest =>
    match s.answer call with
    | .ok (result, s') => ⟨call, .ok result⟩ :: s'.exchanges rest
    | .error cause => ⟨call, .error cause⟩ :: s.exchanges rest

/-- Two stores that keep one ledger answer alike, and go on keeping one. -/
theorem Keeps.exchanges_eq {s s' : Store} {l : Ledger} (h : s.Keeps l) (h' : s'.Keeps l)
    (hl : l.Ordered) (calls : List StoreCall) : s.exchanges calls = s'.exchanges calls := by
  induction calls generalizing s s' l with
  | nil => rfl
  | cons call rest ih =>
    cases hanswer : l.answer call with
    | error cause =>
      have hrest := ih h h' hl
      simp only [exchanges, h.answer_error hl hanswer, h'.answer_error hl hanswer, hrest]
    | ok answered =>
      obtain ⟨result, after⟩ := answered
      obtain ⟨t, ht, hkeeps⟩ := h.answer_ok hl hanswer
      obtain ⟨t', ht', hkeeps'⟩ := h'.answer_ok hl hanswer
      have hrest := ih hkeeps hkeeps' (hl.answer hanswer)
      simp only [exchanges, ht, ht', hrest]

/-- An archive that is opened on an empty database cannot be told from an empty ledger, whatever
calls are made with whatever arguments. -/
theorem exchanges_opened :
    ∃ archive, Archive.open? {} = .ok archive ∧
      ∀ calls, (durable archive).exchanges calls = (memory {}).exchanges calls := by
  have hopened := Archive.open?_database {}
  have hempty : Ledger.database {} = {} := congrArg Archive.database ofLedger_empty
  rw [hempty] at hopened
  refine ⟨_, hopened, ?_⟩
  intro calls
  have hdurable : (durable (Archive.ofLedger (Archive.reopened {}))).Keeps {} := rfl
  have hmemory : (memory {}).Keeps {} := rfl
  exact hdurable.exchanges_eq hmemory Ledger.ordered_empty calls

end Store

end Lending
