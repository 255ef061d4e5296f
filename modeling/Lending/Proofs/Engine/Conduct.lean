import Lending.Engine.World
import Mathlib

/-!
# Rules of conduct

What a program asks for, one request after another, can be bound by rules: in which states which
requests may be made, and to which states their answers lead. Such rules are followed through the
parts of a program, without its surroundings. What the surroundings keep as long as the rules are
followed, they keep along every run.

* `Conduct`: the rules.
* `Program.Abides`: a program follows them, whatever it is answered.
* `Operation.Abides`: the same for operations, with an equation for every part of an operation.
  Those that do not depend on the rules are for `simp`.
* `Program.Abides.run`: what a world and the rules have to do with each other stays so along a run.
-/

namespace Lending

/-- Rules for requests: in which states they may be made, and to which states an answer leads. An
answer that leads nowhere is never given. -/
structure Conduct (σ : Type) where
  may : σ → Request → Prop
  leads : σ → (request : Request) → request.Answer → σ → Prop

variable {σ : Type} {c : Conduct σ} {s : σ}

/-! ## Programs -/

namespace Program

variable {α β : Type}

/-- Begun in a state, the program makes its requests by the rules, and ends with a result and in a
state that satisfy `Q`. -/
def Abides (c : Conduct σ) (Q : α → σ → Prop) : Program α → σ → Prop
  | .done a, s => Q a s
  | .ask request next, s =>
    c.may s request ∧ ∀ answer s', c.leads s request answer s' → (next answer).Abides c Q s'

theorem abides_bind {Q : β → σ → Prop} (p : Program α) (f : α → Program β) :
    (p.bind f).Abides c Q s ↔ p.Abides c (fun a s' => (f a).Abides c Q s') s := by
  induction p generalizing s with
  | done value => rfl
  | ask request next ih =>
    refine and_congr_right fun _ => forall_congr' fun answer => forall_congr' fun s' => ?_
    exact imp_congr_right fun _ => ih answer

theorem Abides.mono {Q Q' : α → σ → Prop} {p : Program α} (hQ : ∀ a s, Q a s → Q' a s)
    (h : p.Abides c Q s) : p.Abides c Q' s := by
  induction p generalizing s with
  | done value => exact hQ _ _ h
  | ask request next ih =>
    exact ⟨h.1, fun answer s' hleads => ih answer (h.2 answer s' hleads)⟩

theorem Abides.run {I : World → σ → Prop} {Q : α → σ → Prop} {p : Program α} {w : World}
    (hI : ∀ w s request, I w s → c.may s request →
      ∃ s', (∀ answer, (w.answer request).1 = some answer → c.leads s request answer s') ∧
        I (w.answer request).2 s') (h : p.Abides c Q s) (hw : I w s) :
    ∃ s', I (w.run p).2 s' ∧ ∀ a, (w.run p).1 = some a → Q a s' := by
  induction p generalizing w s with
  | done value => exact ⟨s, hw, fun a ha => Option.some.inj ha ▸ h⟩
  | ask request next ih =>
    obtain ⟨s', hleads, hw'⟩ := hI w s request hw h.1
    rw [World.run]
    rcases hanswer : w.answer request with ⟨_ | answer, w'⟩ <;> rw [hanswer] at hleads hw'
    · exact ⟨s', hw', nofun⟩
    · exact ih answer (h.2 answer s' (hleads answer rfl)) hw'

end Program

/-! ## Operations -/

namespace Operation

variable {α β : Type}

/-- The same of an operation, which ends with a value and in a state that satisfy `ok`, or fails in
a state that satisfies `fail`. -/
def Abides (c : Conduct σ) (op : Operation α) (ok : α → σ → Prop) (fail : σ → Prop) (s : σ) :
    Prop :=
  Program.Abides c (fun
    | .ok a => ok a
    | .error _ => fail) op.run s

variable {ok : α → σ → Prop} {fail : σ → Prop}

@[simp]
theorem abides_pure (a : α) : Abides c (pure a) ok fail s ↔ ok a s := Iff.rfl

@[simp]
theorem abides_throw (cause : Failure) :
    Abides c (throw cause : Operation α) ok fail s ↔ fail s := Iff.rfl

@[simp]
theorem abides_bind {ok : β → σ → Prop} (op : Operation α) (f : α → Operation β) :
    Abides c (op >>= f) ok fail s ↔ Abides c op (fun a => Abides c (f a) ok fail) fail s := by
  refine (Program.abides_bind _ _).trans (iff_of_eq ?_)
  refine congrArg (fun Q => Program.Abides c Q op.run s) ?_
  funext result s'
  cases result <;> rfl

@[simp]
theorem abides_map (f : β → α) (op : Operation β) :
    Abides c (f <$> op) ok fail s ↔ Abides c op (fun a => ok (f a)) fail s := by
  rw [map_eq_pure_bind, abides_bind]
  rfl

@[simp]
theorem abides_ite (p : Prop) [Decidable p] (x y : Operation α) :
    Abides c (if p then x else y) ok fail s ↔
      (p → Abides c x ok fail s) ∧ (¬p → Abides c y ok fail s) := by
  split <;> simp [*]

theorem Abides.mono {ok' : α → σ → Prop} {fail' : σ → Prop} {op : Operation α}
    (h : Abides c op ok fail s) (hok : ∀ a s, ok a s → ok' a s) (hfail : ∀ s, fail s → fail' s) :
    Abides c op ok' fail' s := by
  refine Program.Abides.mono ?_ h
  rintro (cause | a) s
  · exact hfail s
  · exact hok a s

/-! ### Requests and parts -/

theorem abides_lift (p : Program α) :
    Abides c (liftM p : Operation α) ok fail s ↔ p.Abides c ok s := Program.abides_bind _ _

theorem abides_now {ok : Instant → σ → Prop} : Abides c (liftM now) ok fail s ↔
    c.may s .now ∧ ∀ t s', c.leads s .now t s' → ok t s' := abides_lift _

theorem abides_freshOrder {ok : String → σ → Prop} : Abides c (liftM freshOrder) ok fail s ↔
    c.may s .freshOrder ∧ ∀ order s', c.leads s .freshOrder order s' → ok order s' :=
  abides_lift _

theorem abides_expired {ok : Bool → σ → Prop} (d : Deadline) :
    Abides c (liftM (expired d)) ok fail s ↔
      c.may s (.expired d) ∧ ∀ late s', c.leads s (.expired d) late s' → ok late s' :=
  abides_lift _

theorem abides_schedule {ok : Unit → σ → Prop} (n : Notification) (due : Instant) :
    Abides c (liftM (schedule n due)) ok fail s ↔
      c.may s (.schedule n due) ∧ ∀ s', c.leads s (.schedule n due) () s' → ok () s' :=
  (abides_lift _).trans (and_congr_right fun _ => ⟨fun h => h (), fun h _ => h⟩)

theorem abides_cancel {ok : Bool → σ → Prop} (n : Notification) :
    Abides c (liftM (cancel n)) ok fail s ↔
      c.may s (.cancel n) ∧ ∀ waiting s', c.leads s (.cancel n) waiting s' → ok waiting s' :=
  abides_lift _

theorem abides_score {ok : CreditScore → σ → Prop} (user : String) (d : Deadline) :
    Abides c (score user d) ok fail s ↔ c.may s (.score user d) ∧
      (∀ a s', c.leads s (.score user d) (.ok a) s' → ok a s') ∧
      ∀ cause s', c.leads s (.score user d) (.error cause) s' → fail s' := by
  refine and_congr_right fun _ => ?_
  constructor
  · intro h
    exact ⟨fun a => h (.ok a), fun cause => h (.error cause)⟩
  · rintro ⟨hok, hfail⟩ (cause | a)
    · exact hfail cause
    · exact hok a

-- the type of the result is a case of `StoreCall.Result`, by which `simp` could not find the rule
theorem abides_call (call : StoreCall) {ok : call.Result → σ → Prop} :
    @Abides _ (no_index call.Result) c (Operation.call call) ok fail s ↔ c.may s (.store call) ∧
      (∀ a s', c.leads s (.store call) (.ok a) s' → ok a s') ∧
      ∀ cause s', c.leads s (.store call) (.error cause) s' → fail s' := by
  refine and_congr_right fun _ => ?_
  constructor
  · intro h
    exact ⟨fun a => h (.ok a), fun cause => h (.error cause)⟩
  · rintro ⟨hok, hfail⟩ (cause | a)
    · exact hfail cause
    · exact hok a

@[simp]
theorem abides_require (result : Except Failure α) : Abides c (require result) ok fail s ↔
    (∀ a, result = .ok a → ok a s) ∧ ∀ cause, result = .error cause → fail s := by
  cases result with
  | error cause =>
    constructor
    · intro h
      refine ⟨?_, fun _ _ => h⟩
      rintro _ ⟨⟩
    · intro h
      exact h.2 cause rfl
  | ok a =>
    constructor
    · intro h
      refine ⟨?_, ?_⟩ <;> rintro _ ⟨⟩
      exact h
    · intro h
      exact h.1 a rfl

@[simp]
theorem abides_found {e : Entity} (id : Id e) (row : Option α) :
    Abides c (found id row) ok fail s ↔ (∀ a, row = some a → ok a s) ∧ (row = none → fail s) := by
  unfold found
  rw [abides_require]
  cases row <;> simp

theorem abides_check {ok : Unit → σ → Prop} (d : Deadline) :
    Abides c (check d) ok fail s ↔ c.may s (.expired d) ∧
      ∀ late s', c.leads s (.expired d) late s' →
        (late = true → fail s') ∧ (late = false → ok () s') := by
  simp only [check, abides_bind, abides_expired, abides_ite, abides_throw, abides_pure,
    Bool.not_eq_true]

theorem abides_locked (key : LockKey) (d : Deadline) (body : Operation α) :
    Abides c (locked key d body) ok fail s ↔ c.may s (.acquire key d) ∧
      ∀ granted s', c.leads s (.acquire key d) granted s' →
        (granted = false → fail s') ∧
        (granted = true → Abides c body
          (fun a s => c.may s (.release key) ∧ ∀ s', c.leads s (.release key) () s' → ok a s')
          (fun s => c.may s (.release key) ∧ ∀ s', c.leads s (.release key) () s' → fail s')
          s') := by
  refine and_congr_right fun _ => forall_congr' fun granted => forall_congr' fun s' =>
    imp_congr_right fun _ => ?_
  cases granted with
  | false => exact ⟨fun h => ⟨fun _ => h, nofun⟩, fun h => h.1 rfl⟩
  | true =>
    refine Iff.trans ?_ (Iff.intro (fun h => ⟨nofun, fun _ => h⟩) fun h => h.2 rfl)
    refine (Program.abides_bind body.run _).trans (iff_of_eq ?_)
    refine congrArg (fun Q => Program.Abides c Q body.run s') ?_
    funext result s''
    cases result <;>
      exact propext (and_congr_right fun _ => ⟨fun h => h (), fun h _ => h⟩)

@[simp]
theorem abides_compensated (write : Operation α) (undo : Operation β) :
    Abides c (compensated write undo) ok fail s ↔
      Abides c write ok (Abides c undo (fun _ => fail) fail) s := by
  refine (Program.abides_bind _ _).trans (iff_of_eq ?_)
  refine congrArg (fun Q => Program.Abides c Q write.run s) ?_
  funext result s'
  cases result with
  | ok a => rfl
  | error cause =>
    refine propext ((Program.abides_bind _ _).trans (iff_of_eq ?_))
    refine congrArg (fun Q => Program.Abides c Q undo.run s') ?_
    funext result s''
    cases result <;> rfl

end Operation

end Lending
