/-!
# Journals

A computation may note what it does.  Its notes are typed events in the order of
the work, and they are kept whether it succeeds or fails; what an event says,
and how urgent it is, is decided where the event is defined.  An event is put
into words only for a reader who asks for its level, since the words for an
event can be far longer than the work that it reports.

## Main definitions

* `Level`, `Note`: how urgent a note is, and a note as text;
* `Noted`: events with a level and a text;
* `Journaled`: the events of a computation and what came of it;
* `Journaled.notes`: the notes that are at least as urgent as a level.
-/

namespace ItemSearch

/-- How urgent a note is, the most urgent level first. -/
inductive Level where
  | error
  | warn
  | info
  | debug
  | trace
  deriving DecidableEq

/-- The place of a level, counted from the most urgent one. -/
def Level.rank : Level → Nat
  | .error => 0
  | .warn => 1
  | .info => 2
  | .debug => 3
  | .trace => 4

/-- An event as text. -/
structure Note where
  level : Level
  text : String
  deriving DecidableEq

/-- Events that can be noted. -/
class Noted (ω : Type) where
  /-- How urgent an event is. -/
  level : ω → Level
  /-- What an event says. -/
  text : ω → String

/-- What a computation noted on the way, and what came of it. -/
structure Journaled (ω ε α : Type) where
  events : List ω
  outcome : Except ε α

namespace Journaled

variable {ω ε α β : Type}

/-- The notes of a computation that are at least as urgent as the level. -/
def notes [Noted ω] (level : Level) (x : Journaled ω ε α) : List Note :=
  (x.events.filter fun event =>
      (Noted.level event).rank ≤ level.rank).map fun event =>
    ⟨Noted.level event, Noted.text event⟩

/-- Notes one event. -/
def note (event : ω) : Journaled ω ε Unit :=
  ⟨[event], .ok ()⟩

/-- A computation that notes nothing. -/
def quiet (outcome : Except ε α) : Journaled ω ε α :=
  ⟨[], outcome⟩

instance : Monad (Journaled ω ε) where
  pure a := ⟨[], .ok a⟩
  bind x f :=
    match x.outcome with
    | .ok a => ⟨x.events ++ (f a).events, (f a).outcome⟩
    | .error e => ⟨x.events, .error e⟩

instance : MonadLift (Except ε) (Journaled ω ε) where
  monadLift := quiet

instance : MonadExceptOf ε (Journaled ω ε) where
  throw e := ⟨[], .error e⟩
  tryCatch x handle :=
    match x.outcome with
    | .ok _ => x
    | .error e => ⟨x.events ++ (handle e).events, (handle e).outcome⟩

@[simp] theorem events_note (event : ω) :
    (note event : Journaled ω ε Unit).events = [event] := rfl

@[simp] theorem outcome_note (event : ω) :
    (note event : Journaled ω ε Unit).outcome = .ok () := rfl

@[simp] theorem events_quiet (outcome : Except ε α) :
    (quiet outcome : Journaled ω ε α).events = [] := rfl

@[simp] theorem outcome_quiet (outcome : Except ε α) :
    (quiet outcome : Journaled ω ε α).outcome = outcome := rfl

@[simp] theorem events_pure (a : α) :
    (pure a : Journaled ω ε α).events = [] := rfl

@[simp] theorem outcome_pure (a : α) :
    (pure a : Journaled ω ε α).outcome = .ok a := rfl

@[simp] theorem events_throw (e : ε) :
    (throw e : Journaled ω ε α).events = [] := rfl

@[simp] theorem outcome_throw (e : ε) :
    (throw e : Journaled ω ε α).outcome = .error e := rfl

theorem bind_of_ok {x : Journaled ω ε α} {a : α} (ok : x.outcome = .ok a)
    (f : α → Journaled ω ε β) :
    x >>= f = ⟨x.events ++ (f a).events, (f a).outcome⟩ := by
  simp only [bind, ok]

theorem bind_of_error {x : Journaled ω ε α} {e : ε}
    (failed : x.outcome = .error e) (f : α → Journaled ω ε β) :
    x >>= f = ⟨x.events, .error e⟩ := by
  simp only [bind, failed]

/-- The outcome of two steps does not depend on what the first one noted. -/
theorem outcome_bind (x : Journaled ω ε α) (f : α → Journaled ω ε β) :
    (x >>= f).outcome = x.outcome >>= fun a => (f a).outcome := by
  cases ok : x.outcome with
  | ok a => rw [bind_of_ok ok]; rfl
  | error e => rw [bind_of_error ok]; rfl

theorem outcome_foldlM (f : α → β → Journaled ω ε α) (a : α) (bs : List β) :
    (bs.foldlM f a).outcome = bs.foldlM (fun a b => (f a b).outcome) a := by
  induction bs generalizing a with
  | nil => rfl
  | cons b bs ih =>
      rw [List.foldlM_cons, List.foldlM_cons, outcome_bind]
      exact congrArg _ (funext ih)

instance : LawfulMonad (Journaled ω ε) :=
  LawfulMonad.mk' _
    (by rintro α ⟨events, _ | _⟩ <;> simp [Functor.map])
    (by
      intro α β a f
      simp [bind, pure])
    (by
      rintro α β γ ⟨events, _ | a⟩ f g
      · rfl
      · simp only [bind]
        cases (f a).outcome <;> simp)

end Journaled

end ItemSearch
