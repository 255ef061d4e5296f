import Lending.Proofs.Store.Interchange

/-!
# What every execution ensures

An operation is followed through everything that its surroundings may answer: any lock may be
refused, any deadline may have passed, the clock may show anything, and store calls fail in the ways
that are allowed. Only the rows and the queue answer as they are.

* `Books`: the rows and the queue; `World.Shows`: a world that has them, in either kind of store.
* `Faults`: which calls may fail, and how.
* `Program.Always`: what holds at the end of a program, however its requests are answered.
* `Operation.Ensures`: the same for operations, with an equation for every part of an operation.
* `World.Runs`: how a program may run while time goes by, before any of its requests.
* `World.Runs.shows`: the end of a run is one that the program always ensures.
-/

namespace Lending

/-- The rows of the books and the notifications that wait. -/
structure Books where
  ledger : Ledger
  queue : Queue

/-- Which faults a store call may meet. -/
abbrev Faults := StoreCall → Fault → Prop

/-- Every call may be refused, and every call may crash. -/
def Faults.any : Faults := fun _ _ => True

instance (call : StoreCall) (fault : Fault) : Decidable (Faults.any call fault) := isTrue trivial

namespace Books

/-- How books may answer a request and go on; without an answer the program ends. Numbers that have
run out are not considered. -/
def Reacts (faults : Faults) (b : Books) :
    (request : Request) → Option request.Answer → Books → Prop
  | .store call, answer, b' =>
    (faults call .refusal ∧ answer = some (.error (.storage .outage)) ∧ b' = b) ∨
      (faults call .crash ∧ answer = none ∧ b' = b) ∨
      (∃ cause, b.ledger.answer call = .error cause ∧ answer = some (.error cause) ∧ b' = b) ∨
      ∃ result ledger, b.ledger.counters.Left call ∧
        b.ledger.answer call = .ok (result, ledger) ∧ answer = some (.ok result) ∧
        b' = { b with ledger }
  | .schedule n due, answer, b' =>
    answer = some () ∧ b' = { b with queue := b.queue.schedule n due }
  | .cancel n, answer, b' =>
    answer = some (b.queue.cancel n).1 ∧ b' = { b with queue := (b.queue.cancel n).2 }
  | .takeDue now, answer, b' =>
    answer = some (b.queue.takeDue now).1 ∧ b' = { b with queue := (b.queue.takeDue now).2 }
  | .acquire _ _, answer, b' => answer.isSome ∧ b' = b
  | .release _, answer, b' => answer.isSome ∧ b' = b
  | .score _ _, answer, b' => answer.isSome ∧ b' = b
  | .expired _, answer, b' => answer.isSome ∧ b' = b
  | .now, answer, b' => answer.isSome ∧ b' = b
  | .freshOrder, answer, b' => answer.isSome ∧ b' = b
  | .pruneLocks, answer, b' => answer.isSome ∧ b' = b

end Books

theorem Books.Reacts.sound {faults : Faults} {b b' : Books} {request : Request}
    {answer : Option request.Answer} (h : b.Reacts faults request answer b')
    (hb : b.ledger.Sound) : b'.ledger.Sound := by
  cases request with
  | store call =>
    rcases h with ⟨-, -, rfl⟩ | ⟨-, -, rfl⟩ | ⟨_, -, -, rfl⟩ | ⟨result, ledger, hleft, hr, -, rfl⟩
    · exact hb
    · exact hb
    · exact hb
    · exact hb.answer hleft hr
  | schedule _ _ | cancel _ | takeDue _ =>
    obtain ⟨-, rfl⟩ := h
    exact hb
  | acquire _ _ | release _ | score _ _ | expired _ | now | freshOrder | pruneLocks =>
    obtain ⟨-, rfl⟩ := h
    exact hb

/-! ## Programs -/

namespace Program

variable {α β : Type} {faults : Faults}

/-- However the requests are answered, the program ends with a result and with books that satisfy
`Q`. There is no result if it crashes. -/
def Always (faults : Faults) (Q : Option α → Books → Prop) : Program α → Books → Prop
  | .done value, b => Q (some value) b
  | .ask request next, b =>
    ∀ answer b', b.Reacts faults request answer b' →
      match answer with
      | some answer => (next answer).Always faults Q b'
      | none => Q none b'

theorem always_bind {Q : Option β → Books → Prop} (p : Program α) (f : α → Program β) (b : Books) :
    (p.bind f).Always faults Q b ↔
      p.Always faults (fun result b' =>
        match result with
        | some a => (f a).Always faults Q b'
        | none => Q none b') b := by
  induction p generalizing b with
  | done value => rfl
  | ask request next ih =>
    simp only [bind, Always]
    refine forall_congr' fun answer => forall_congr' fun b' => imp_congr_right fun _ => ?_
    cases answer with
    | none => rfl
    | some answer => exact ih answer b'

theorem Always.mono {Q Q' : Option α → Books → Prop} (hQ : ∀ result b, Q result b → Q' result b)
    {p : Program α} {b : Books} (h : p.Always faults Q b) : p.Always faults Q' b := by
  induction p generalizing b with
  | done value => exact hQ _ _ h
  | ask request next ih =>
    intro answer b' hreacts
    have hnext := h answer b' hreacts
    cases answer with
    | none => exact hQ _ _ hnext
    | some answer => exact ih answer hnext

theorem Always.and {Q Q' : Option α → Books → Prop} {p : Program α} {b : Books}
    (h : p.Always faults Q b) (h' : p.Always faults Q' b) :
    p.Always faults (fun result b' => Q result b' ∧ Q' result b') b := by
  induction p generalizing b with
  | done value => exact ⟨h, h'⟩
  | ask request next ih =>
    intro answer b' hreacts
    have hnext := h answer b' hreacts
    have hnext' := h' answer b' hreacts
    cases answer with
    | none => exact ⟨hnext, hnext'⟩
    | some answer => exact ih answer hnext hnext'

/-- Sound books stay sound. -/
theorem Always.sound {Q : Option α → Books → Prop} {p : Program α} {b : Books}
    (h : p.Always faults Q b) (hb : b.ledger.Sound) :
    p.Always faults (fun result b' => b'.ledger.Sound ∧ Q result b') b := by
  induction p generalizing b with
  | done value => exact ⟨hb, h⟩
  | ask request next ih =>
    intro answer b' hreacts
    have hnext := h answer b' hreacts
    cases answer with
    | none => exact ⟨hreacts.sound hb, hnext⟩
    | some answer => exact ih answer hnext (hreacts.sound hb)

end Program

/-! ## Operations -/

namespace Operation

variable {α β : Type} {faults : Faults}

/-- What is asked of each way to end: `ok` of a value, `fail` of the cause of a failure, or of none
in a crash. -/
def Outcome (ok : α → Books → Prop) (fail : Option Failure → Books → Prop) :
    Option (Except Failure α) → Books → Prop
  | some (.ok a), b => ok a b
  | some (.error cause), b => fail (some cause) b
  | none, b => fail none b

/-- However the requests are answered, the operation ends as `ok` and `fail` ask. -/
def Ensures (faults : Faults) (op : Operation α) (ok : α → Books → Prop)
    (fail : Option Failure → Books → Prop) (b : Books) : Prop :=
  Program.Always faults (Outcome ok fail) op.run b

variable {ok : α → Books → Prop} {fail : Option Failure → Books → Prop} {b : Books}

theorem ensures_pure (a : α) : Ensures faults (pure a) ok fail b ↔ ok a b := Iff.rfl

theorem ensures_throw (cause : Failure) :
    Ensures faults (throw cause : Operation α) ok fail b ↔ fail (some cause) b := Iff.rfl

theorem ensures_bind {ok : β → Books → Prop} (op : Operation α) (f : α → Operation β) :
    Ensures faults (op >>= f) ok fail b ↔
      Ensures faults op (fun a b' => Ensures faults (f a) ok fail b') fail b := by
  refine (Program.always_bind _ _ b).trans (iff_of_eq ?_)
  refine congrArg (fun Q => Program.Always faults Q op.run b) ?_
  funext result b'
  rcases result with _ | cause | a <;> rfl

theorem Ensures.mono {ok' : α → Books → Prop} {fail' : Option Failure → Books → Prop}
    {op : Operation α} (hok : ∀ a b, ok a b → ok' a b)
    (hfail : ∀ cause b, fail cause b → fail' cause b) (h : Ensures faults op ok fail b) :
    Ensures faults op ok' fail' b := by
  refine Program.Always.mono (fun result b' hresult => ?_) h
  rcases result with _ | cause | a
  · exact hfail _ _ hresult
  · exact hfail _ _ hresult
  · exact hok _ _ hresult

/-- A program whose result is no failure, as a part of an operation. -/
theorem ensures_lift (p : Program α) :
    Ensures faults (liftM p : Operation α) ok fail b ↔
      p.Always faults (fun result b' =>
        match result with
        | some a => ok a b'
        | none => fail none b') b := by
  refine (Program.always_bind _ _ b).trans (iff_of_eq ?_)
  refine congrArg (fun Q => Program.Always faults Q p b) ?_
  funext result b'
  rcases result with _ | a <;> rfl

/-! ### Requests -/

/-- A request that leaves the books alone. -/
def IsQuiet (request : Request) : Prop :=
  ∀ faults b answer b', Books.Reacts faults b request answer b' ↔ answer.isSome ∧ b' = b

theorem always_quiet {request : Request} (hquiet : IsQuiet request)
    {Q : Option α → Books → Prop} (f : request.Answer → Program α) :
    Program.Always faults Q (.ask request f) b ↔
      ∀ answer, Program.Always faults Q (f answer) b := by
  constructor
  · exact fun h answer => h (some answer) b ((hquiet ..).mpr ⟨rfl, rfl⟩)
  · intro h answer b' hreacts
    obtain ⟨hanswer, rfl⟩ := (hquiet ..).mp hreacts
    cases answer with
    | none => cases hanswer
    | some answer => exact h answer

theorem ensures_quiet {request : Request} (hquiet : IsQuiet request)
    {ok : request.Answer → Books → Prop} :
    Ensures faults (liftM (Program.perform request)) ok fail b ↔ ∀ answer, ok answer b :=
  (ensures_lift _).trans (always_quiet hquiet _)

theorem ensures_now {ok : Instant → Books → Prop} :
    Ensures faults (liftM now) ok fail b ↔ ∀ t, ok t b :=
  ensures_quiet fun _ _ _ _ => Iff.rfl

theorem ensures_freshOrder {ok : String → Books → Prop} :
    Ensures faults (liftM freshOrder) ok fail b ↔ ∀ order, ok order b :=
  ensures_quiet fun _ _ _ _ => Iff.rfl

theorem ensures_expired {ok : Bool → Books → Prop} (limit : Deadline) :
    Ensures faults (liftM (expired limit)) ok fail b ↔ ∀ late, ok late b :=
  ensures_quiet fun _ _ _ _ => Iff.rfl

theorem ensures_schedule {ok : Unit → Books → Prop} (n : Notification) (due : Instant) :
    Ensures faults (liftM (schedule n due)) ok fail b ↔
      ok () { b with queue := b.queue.schedule n due } := by
  rw [ensures_lift]
  constructor
  · exact fun h => h (some ()) _ ⟨rfl, rfl⟩
  · rintro h _ _ ⟨rfl, rfl⟩
    exact h

theorem ensures_cancel {ok : Bool → Books → Prop} (n : Notification) :
    Ensures faults (liftM (cancel n)) ok fail b ↔
      ok (b.queue.cancel n).1 { b with queue := (b.queue.cancel n).2 } := by
  rw [ensures_lift]
  constructor
  · exact fun h => h (some _) _ ⟨rfl, rfl⟩
  · rintro h _ _ ⟨rfl, rfl⟩
    exact h

theorem ensures_score {ok : CreditScore → Books → Prop} (user : String) (limit : Deadline) :
    Ensures faults (score user limit) ok fail b ↔
      (∀ s, ok s b) ∧ ∀ cause, fail (some cause) b := by
  have hquiet : IsQuiet (.score user limit) := fun _ _ _ _ => Iff.rfl
  apply (always_quiet hquiet _).trans
  constructor
  · intro h
    exact ⟨fun s => h (.ok s), fun cause => h (.error cause)⟩
  · rintro ⟨hok, hfail⟩ (cause | s)
    · exact hfail cause
    · exact hok s

/-- If the call breaks in a way that is allowed, `fail` holds. -/
def Breaks (faults : Faults) (c : StoreCall) (fail : Option Failure → Books → Prop) (b : Books) :
    Prop :=
  (faults c .refusal → fail (some (.storage .outage)) b) ∧ (faults c .crash → fail none b)

theorem breaks_of {c : StoreCall} (h : ∀ cause, fail cause b) : Breaks faults c fail b :=
  ⟨fun _ => h _, fun _ => h _⟩

-- the type of the result is a case of `StoreCall.Result`, by which `simp` could not find the rule
theorem ensures_call (c : StoreCall) {ok : c.Result → Books → Prop} :
    @Ensures (no_index c.Result) faults (call c) ok fail b ↔
      Breaks faults c fail b ∧
        (∀ cause, b.ledger.answer c = .error cause → fail (some cause) b) ∧
        ∀ result ledger, b.ledger.counters.Left c → b.ledger.answer c = .ok (result, ledger) →
          ok result { b with ledger } := by
  constructor
  · intro h
    refine ⟨⟨?_, ?_⟩, ?_, ?_⟩
    · intro hf
      exact h (some (.error (.storage .outage))) b (.inl ⟨hf, rfl, rfl⟩)
    · intro hf
      exact h none b (.inr (.inl ⟨hf, rfl, rfl⟩))
    · intro cause hc
      exact h (some (.error cause)) b (.inr (.inr (.inl ⟨cause, hc, rfl, rfl⟩)))
    · intro result ledger hleft hr
      exact h (some (.ok result)) _ (.inr (.inr (.inr ⟨result, ledger, hleft, hr, rfl, rfl⟩)))
  · rintro ⟨⟨hrefused, hcrashed⟩, herror, hok⟩ answer b' hreacts
    rcases hreacts with ⟨hf, rfl, rfl⟩ | ⟨hf, rfl, rfl⟩ | ⟨cause, hc, rfl, rfl⟩ |
      ⟨result, ledger, hleft, hr, rfl, rfl⟩
    · exact hrefused hf
    · exact hcrashed hf
    · exact herror cause hc
    · exact hok result ledger hleft hr

/-! ### Look-ups -/

theorem ensures_look {c : StoreCall} {found : Ledger → c.Result}
    (h : ∀ l : Ledger, l.answer c = .ok (found l, l)) (hleft : ∀ n : Counters, n.Left c)
    {ok : c.Result → Books → Prop} :
    @Ensures (no_index c.Result) faults (call c) ok fail b ↔
      Breaks faults c fail b ∧ ok (found b.ledger) b := by
  rw [ensures_call]
  constructor
  · exact fun ⟨hbreaks, _, hok⟩ => ⟨hbreaks, hok _ _ (hleft _) (h _)⟩
  · rintro ⟨hbreaks, hok⟩
    refine ⟨hbreaks, ?_, ?_⟩
    · intro cause hc
      rw [h] at hc
      cases hc
    · intro result ledger _ hr
      rw [h] at hr
      obtain ⟨rfl, rfl⟩ := Prod.mk.inj (Except.ok.inj hr)
      exact hok

/-! ### Parts -/

theorem ensures_map (f : β → α) (op : Operation β) :
    Ensures faults (f <$> op) ok fail b ↔ Ensures faults op (fun a => ok (f a)) fail b := by
  rw [map_eq_pure_bind, ensures_bind]
  rfl

theorem ensures_ite (c : Prop) [Decidable c] (x y : Operation α) :
    Ensures faults (if c then x else y) ok fail b ↔
      (c → Ensures faults x ok fail b) ∧ (¬c → Ensures faults y ok fail b) := by
  split <;> simp [*]

theorem ensures_require (result : Except Failure α) :
    Ensures faults (require result) ok fail b ↔
      (∀ a, result = .ok a → ok a b) ∧ ∀ cause, result = .error cause → fail (some cause) b := by
  cases result with
  | error cause =>
    constructor
    · intro h
      exact ⟨by rintro _ ⟨⟩, by rintro _ ⟨⟩; exact h⟩
    · intro h
      exact h.2 cause rfl
  | ok a =>
    constructor
    · intro h
      exact ⟨by rintro _ ⟨⟩; exact h, by rintro _ ⟨⟩⟩
    · intro h
      exact h.1 a rfl

theorem ensures_check {ok : Unit → Books → Prop} (limit : Deadline) :
    Ensures faults (check limit) ok fail b ↔ fail (some .timeout) b ∧ ok () b := by
  simp only [check, ensures_bind, ensures_expired, ensures_ite, ensures_throw, ensures_pure]
  constructor
  · intro h
    exact ⟨(h true).1 rfl, (h false).2 (by decide)⟩
  · intro h late
    exact ⟨fun _ => h.1, fun _ => h.2⟩

theorem ensures_boundedCall (limit : Deadline) (c : StoreCall) {ok : c.Result → Books → Prop} :
    @Ensures (no_index c.Result) faults (boundedCall limit c) ok fail b ↔
      fail (some .timeout) b ∧ Ensures faults (call c) ok fail b := by
  simp only [boundedCall, ensures_bind, ensures_check]

theorem ensures_found {e : Entity} (id : Id e) (row : Option α) :
    Ensures faults (found id row) ok fail b ↔
      (∀ a, row = some a → ok a b) ∧ (row = none → fail (some (.notFound e id.value)) b) := by
  unfold found
  rw [ensures_require]
  cases row <;> simp

theorem ensures_locked (key : LockKey) (limit : Deadline) (body : Operation α) :
    Ensures faults (locked key limit body) ok fail b ↔
      fail (some .timeout) b ∧ Ensures faults body ok fail b := by
  have hacquire : IsQuiet (.acquire key limit) := fun _ _ _ _ => Iff.rfl
  have hrelease : IsQuiet (.release key) := fun _ _ _ _ => Iff.rfl
  have hbody : Program.Always faults (Outcome ok fail)
      (body.run.bind fun result => .ask (.release key) fun _ => .done result) b ↔
        Ensures faults body ok fail b := by
    refine (Program.always_bind _ _ b).trans (iff_of_eq ?_)
    refine congrArg (fun Q => Program.Always faults Q body.run b) ?_
    funext result b'
    cases result with
    | none => rfl
    | some result =>
      apply propext
      exact (always_quiet hrelease _).trans ⟨fun h => h (), fun h _ => h⟩
  apply (always_quiet hacquire _).trans
  constructor
  · intro h
    exact ⟨h false, hbody.mp (h true)⟩
  · rintro ⟨hlate, hheld⟩ (_ | _)
    · exact hlate
    · exact hbody.mpr hheld

/-- What is asked of a failed write: that its compensation, too, ends as `fail` asks. -/
def Compensated (faults : Faults) (undo : Operation β) (fail : Option Failure → Books → Prop) :
    Option Failure → Books → Prop
  | none, b => fail none b
  | some cause, b =>
    Ensures faults undo (fun _ => fail (some cause)) (fun c => fail (c.map fun _ => cause)) b

theorem ensures_compensated (write : Operation α) (undo : Operation β) :
    Ensures faults (compensated write undo) ok fail b ↔
      Ensures faults write ok (Compensated faults undo fail) b := by
  refine (Program.always_bind _ _ b).trans (iff_of_eq ?_)
  refine congrArg (fun Q => Program.Always faults Q write.run b) ?_
  funext result b'
  rcases result with _ | cause | a
  · rfl
  · refine propext ((Program.always_bind _ _ b').trans (iff_of_eq ?_))
    refine congrArg (fun Q => Program.Always faults Q undo.run b') ?_
    funext result b''
    rcases result with _ | cause' | a <;> rfl
  · rfl

end Operation

/-! ## Worlds -/

namespace World

variable {faults : Faults} {w : World} {b : Books}

/-- The world has these rows and these waiting notifications. -/
def Shows (w : World) (b : Books) : Prop := w.store.Keeps b.ledger ∧ w.queue = b.queue

/-- A store call meets no fault but those allowed, and finds the numbers that it needs. -/
def Grants (faults : Faults) (w : World) : Request → Prop
  | .store call =>
    match w.outages.next call.method with
    | some fault => faults call fault
    | none => w.store.counters.Left call
  | _ => True

/-- Every store call of the program meets no fault but those allowed, and finds the numbers that it
needs: no counter has come to its end, `2 ^ 64 - 1`, where it would begin again at zero. -/
def Follows {α : Type} (faults : Faults) : Program α → World → Prop
  | .done _, _ => True
  | .ask request next, w =>
    w.Grants faults request ∧
      match w.answer request with
      | (some answer, w') => Follows faults (next answer) w'
      | (none, _) => True

theorem Grants.mono {faults' : Faults}
    (hfaults : ∀ call fault, faults call fault → faults' call fault)
    {request : Request} (h : w.Grants faults request) : w.Grants faults' request := by
  cases request with
  | store call =>
    simp only [Grants] at h ⊢
    split at h
    · exact hfaults call _ h
    · exact h
  | acquire _ _ | release _ | score _ _ | expired _ | now | freshOrder | schedule _ _ | cancel _
  | takeDue _ | pruneLocks => trivial

/-- A run that meets only some faults follows more of them, too. -/
theorem Follows.mono {α : Type} {faults' : Faults}
    (hfaults : ∀ call fault, faults call fault → faults' call fault) {p : Program α}
    (h : w.Follows faults p) : w.Follows faults' p := by
  induction p generalizing w with
  | done value => trivial
  | ask request next ih =>
    rw [Follows] at h ⊢
    obtain ⟨hgrants, hrest⟩ := h
    refine ⟨hgrants.mono hfaults, ?_⟩
    rcases hanswer : w.answer request with ⟨_ | answer, w'⟩
    · trivial
    · rw [hanswer] at hrest
      exact ih answer hrest

section Decidable

variable [∀ call fault, Decidable (faults call fault)]

instance decidableGrants (w : World) (request : Request) : Decidable (w.Grants faults request) :=
  match request with
  | .store call =>
    match h : w.outages.next call.method with
    | some fault => decidable_of_iff (faults call fault) (by simp [Grants, h])
    | none => decidable_of_iff (w.store.counters.Left call) (by simp [Grants, h])
  | .acquire _ _ | .release _ | .score _ _ | .expired _ | .now | .freshOrder | .schedule _ _
  | .cancel _ | .takeDue _ | .pruneLocks => isTrue trivial

instance decidableFollows {α : Type} :
    (p : Program α) → (w : World) → Decidable (w.Follows faults p)
  | .done _, _ => isTrue trivial
  | .ask request next, w =>
    match h : w.answer request with
    | (some answer, w') =>
      have := decidableFollows (next answer) w'
      decidable_of_iff (w.Grants faults request ∧ w'.Follows faults (next answer))
        (by rw [Follows, h])
    | (none, _) => decidable_of_iff (w.Grants faults request) (by simp [Follows, h])

end Decidable

theorem shows_passTo (h : w.Shows b) (time : Nat) : (w.passTo time).Shows b := by
  unfold passTo
  split <;> exact h

theorem shows_drawScore (h : w.Shows b) (inTime : Bool) (user : String) :
    (w.drawScore inTime user).2.Shows b := by
  unfold drawScore
  split <;> exact h

theorem callStore_reacts (h : w.Shows b) (hb : b.ledger.Sound) {call : StoreCall}
    (hgrants : w.Grants faults (.store call)) :
    ∃ b', b.Reacts faults (.store call) (w.callStore call).1 b' ∧
      (w.callStore call).2.Shows b' := by
  simp only [Grants] at hgrants
  simp only [callStore]
  cases hfault : w.outages.next call.method with
  | some fault =>
    rw [hfault] at hgrants
    cases fault with
    | refusal => exact ⟨b, .inl ⟨hgrants, rfl, rfl⟩, h⟩
    | crash => exact ⟨b, .inr (.inl ⟨hgrants, rfl, rfl⟩), h⟩
  | none =>
    rw [hfault] at hgrants
    simp only [h.1.counters_eq] at hgrants
    cases hanswer : b.ledger.answer call with
    | error cause =>
      simp only [h.1.answer_error hb.toOrdered hanswer]
      exact ⟨b, .inr (.inr (.inl ⟨cause, hanswer, rfl, rfl⟩)), h⟩
    | ok answered =>
      obtain ⟨result, ledger⟩ := answered
      obtain ⟨store, hstore, hkeeps⟩ := h.1.answer_ok hb.toOrdered hanswer
      simp only [hstore]
      exact ⟨{ b with ledger }, .inr (.inr (.inr ⟨result, ledger, hgrants, hanswer, rfl, rfl⟩)),
        hkeeps, h.2⟩

/-- What a world answers is what its books may answer. -/
theorem answer_reacts (h : w.Shows b) (hb : b.ledger.Sound) {request : Request}
    (hgrants : w.Grants faults request) :
    ∃ b', b.Reacts faults request (w.answer request).1 b' ∧ (w.answer request).2.Shows b' := by
  obtain ⟨hstore, hqueue⟩ := h
  cases request with
  | store call => exact callStore_reacts ⟨hstore, hqueue⟩ hb hgrants
  | schedule n due => exact ⟨_, ⟨rfl, rfl⟩, hstore, by simp only [answer, hqueue]⟩
  | cancel n =>
    simp only [answer, hqueue]
    exact ⟨_, ⟨rfl, rfl⟩, hstore, rfl⟩
  | takeDue now =>
    simp only [answer, hqueue]
    exact ⟨_, ⟨rfl, rfl⟩, hstore, rfl⟩
  | acquire key limit =>
    simp only [answer]
    split <;> exact ⟨b, ⟨rfl, rfl⟩, hstore, hqueue⟩
  | score user limit =>
    exact ⟨b, ⟨rfl, rfl⟩, shows_drawScore (shows_passTo ⟨hstore, hqueue⟩ _) _ _⟩
  | release _ | expired _ | now | freshOrder | pruneLocks =>
    exact ⟨b, ⟨rfl, rfl⟩, hstore, hqueue⟩

/-! ### Time that goes by -/

/-- Time goes by: deadlines come nearer, and the engine's clock may show anything afterwards. -/
def Lapses (w w' : World) : Prop :=
  ∃ time clock, w.time ≤ time ∧ w' = { w with time, clock }

theorem Lapses.refl (w : World) : w.Lapses w := ⟨w.time, w.clock, Nat.le_refl _, rfl⟩

section Lapses

variable {w' : World} (h : w.Lapses w')

include h

theorem Lapses.store : w'.store = w.store := by
  obtain ⟨_, _, -, rfl⟩ := h
  rfl

theorem Lapses.outages : w'.outages = w.outages := by
  obtain ⟨_, _, -, rfl⟩ := h
  rfl

theorem Lapses.queue : w'.queue = w.queue := by
  obtain ⟨_, _, -, rfl⟩ := h
  rfl

theorem Lapses.locks : w'.locks = w.locks := by
  obtain ⟨_, _, -, rfl⟩ := h
  rfl

theorem Lapses.time : w.time ≤ w'.time := by
  obtain ⟨_, _, htime, rfl⟩ := h
  exact htime

theorem Lapses.shows (hshows : w.Shows b) : w'.Shows b :=
  ⟨h.store ▸ hshows.1, h.queue.trans hshows.2⟩

end Lapses

/-- A program that crashed gives up its locks. -/
def crashed (w : World) : World := { w with locks := { w.locks with attempts := [] } }

/-- A program runs alone, and any time may go by before each of its requests: its result, and the
world after it. Its store calls meet no fault but those allowed, and find the numbers that they
need. There is no result if it crashes. -/
inductive Runs {α : Type} (faults : Faults) : Program α → World → Option α → World → Prop
  | done {value : α} {w : World} : Runs faults (.done value) w (some value) w
  | ask {request : Request} {next : request.Answer → Program α} {answer : request.Answer}
      {result : Option α} {w later answered w' : World} (lapses : w.Lapses later)
      (grants : later.Grants faults request)
      (answers : later.answer request = (some answer, answered))
      (rest : Runs faults (next answer) answered result w') :
    Runs faults (.ask request next) w result w'
  | crash {request : Request} {next : request.Answer → Program α} {w later broken : World}
      (lapses : w.Lapses later) (grants : later.Grants faults request)
      (answers : later.answer request = (none, broken)) :
    Runs faults (.ask request next) w none broken.crashed

section Runs

variable {α : Type} {p : Program α} {result : Option α} {w' : World}

/-- A program that begins with a request which is answered. -/
theorem runs_ask {request : Request} {next : request.Answer → Program α}
    {answer : World → request.Answer} {answered : World → World}
    (h : ∀ later, w.Lapses later → later.answer request = (some (answer later), answered later)) :
    w.Runs faults (.ask request next) result w' ↔
      ∃ later, w.Lapses later ∧ later.Grants faults request ∧
        (answered later).Runs faults (next (answer later)) result w' := by
  constructor
  · intro hruns
    cases hruns with
    | @ask _ _ _ _ _ later _ _ lapses grants answers rest =>
      rw [h later lapses] at answers
      obtain ⟨hanswer, rfl⟩ := Prod.mk.inj answers
      obtain rfl := Option.some.inj hanswer
      exact ⟨later, lapses, grants, rest⟩
    | @crash _ _ _ later _ lapses grants answers =>
      rw [h later lapses] at answers
      cases answers
  · rintro ⟨later, lapses, grants, rest⟩
    exact .ask lapses grants (h later lapses) rest

/-- A run that meets only some faults meets more of them, too. -/
theorem Runs.mono {faults' : Faults}
    (hfaults : ∀ call fault, faults call fault → faults' call fault)
    (h : w.Runs faults p result w') : w.Runs faults' p result w' := by
  induction h with
  | done => exact .done
  | ask lapses grants answers _ ih => exact .ask lapses (grants.mono hfaults) answers ih
  | crash lapses grants answers => exact .crash lapses (grants.mono hfaults) answers

/-- However time goes by, a run ends as the program always does. -/
theorem Runs.shows {Q : Option α → Books → Prop} (h : w.Runs faults p result w')
    (hp : p.Always faults Q b) (hshows : w.Shows b) (hb : b.ledger.Sound) :
    ∃ b', w'.Shows b' ∧ b'.ledger.Sound ∧ Q result b' := by
  induction h generalizing b with
  | done => exact ⟨b, hshows, hb, hp⟩
  | ask lapses grants answers _ ih =>
    obtain ⟨b', hreacts, hshows'⟩ := answer_reacts (lapses.shows hshows) hb grants
    rw [answers] at hreacts hshows'
    exact ih (hp _ b' hreacts) hshows' (hreacts.sound hb)
  | crash lapses grants answers =>
    obtain ⟨b', hreacts, hshows'⟩ := answer_reacts (lapses.shows hshows) hb grants
    rw [answers] at hreacts hshows'
    exact ⟨b', hshows', hreacts.sound hb, hp _ b' hreacts⟩

/-! ### Runs in no time -/

/-- The world after a program that ran alone. One that crashes gives up its locks. -/
def after (w : World) (p : Program α) : World :=
  match w.run p with
  | (some _, w') => w'
  | (none, w') => w'.crashed

theorem after_store (w : World) (p : Program α) : (w.after p).store = (w.run p).2.store := by
  unfold after
  rcases w.run p with ⟨_ | _, _⟩ <;> rfl

theorem after_queue (w : World) (p : Program α) : (w.after p).queue = (w.run p).2.queue := by
  unfold after
  rcases w.run p with ⟨_ | _, _⟩ <;> rfl

/-- The world after a program that ended with a result. -/
theorem after_eq {a : α} (h : (w.run p).1 = some a) : w.after p = (w.run p).2 := by
  unfold after
  rcases hrun : w.run p with ⟨_ | _, w'⟩
  · rw [hrun] at h
    cases h
  · rfl

/-- It may be that no time goes by but that of the scores. -/
theorem Follows.runs (h : w.Follows faults p) : w.Runs faults p (w.run p).1 (w.after p) := by
  induction p generalizing w with
  | done value => exact .done
  | ask request next ih =>
    rw [Follows] at h
    obtain ⟨hgrants, hrest⟩ := h
    unfold after
    rw [run]
    rcases hanswer : w.answer request with ⟨_ | answer, w'⟩
    · exact .crash (.refl w) hgrants hanswer
    · rw [hanswer] at hrest
      exact .ask (.refl w) hgrants hanswer (ih answer hrest)

theorem Follows.runsTo (h : w.Follows faults p) (hresult : (w.run p).1 = result) :
    w.Runs faults p result (w.after p) := hresult ▸ h.runs

/-- A run in no time ends as the program always does. -/
theorem run_shows {Q : Option α → Books → Prop} (hp : p.Always faults Q b) (h : w.Shows b)
    (hb : b.ledger.Sound) (hw : w.Follows faults p) :
    ∃ b', (w.run p).2.Shows b' ∧ b'.ledger.Sound ∧ Q (w.run p).1 b' := by
  have hruns := hw.runs.shows hp h hb
  simpa only [Shows, after_store, after_queue] using hruns

end Runs

end World

end Lending
