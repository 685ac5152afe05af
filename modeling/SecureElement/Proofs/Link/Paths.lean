import SecureElement.Link.Dialogue

/-!
The ways through a dialogue.

A way through one dialogue after another is a way through the first and then one through the second,
so a long session is taken apart at its parts (`Dialogue.path_bind_iff`, `Session.path_bind_iff`). What
a session asks for is read off its text with `Session.Asks`, and holds of every way through it. Runs in
surroundings are ways through (`Dialogue.path_transcript`).
-/

namespace SecureElement

namespace Dialogue

variable {α β σ : Type}

@[simp] theorem done_bind (a : α) (f : α → Dialogue β) : (done a).bind f = f a := rfl

@[simp] theorem ask_bind (q : Query) (next : q.Answer → Dialogue α) (f : α → Dialogue β) :
    (ask q next).bind f = ask q fun answer => (next answer).bind f := rfl

theorem bind_done (d : Dialogue α) : d.bind done = d := by
  induction d with
  | done a => rfl
  | ask q next ih => exact congrArg (ask q) (funext ih)

theorem bind_bind {γ : Type} (d : Dialogue α) (f : α → Dialogue β) (g : β → Dialogue γ) :
    (d.bind f).bind g = d.bind fun a => (f a).bind g := by
  induction d with
  | done a => rfl
  | ask q next ih => exact congrArg (ask q) (funext ih)

instance : LawfulMonad Dialogue :=
  LawfulMonad.mk' Dialogue bind_done (fun _ _ => rfl) bind_bind

/-! ### Ways through a dialogue -/

theorem path_done_iff {a b : α} {steps : List Step} :
    Path (done a) steps b ↔ steps = [] ∧ b = a := by
  constructor
  · intro path
    cases path
    exact ⟨rfl, rfl⟩
  · rintro ⟨rfl, rfl⟩
    exact .done _

theorem path_ask_iff {q : Query} {next : q.Answer → Dialogue α} {steps : List Step} {a : α} :
    Path (ask q next) steps a ↔
      ∃ answer rest, steps = ⟨q, answer⟩ :: rest ∧ Path (next answer) rest a := by
  constructor
  · intro path
    cases path with
    | ask rest => exact ⟨_, _, rfl, rest⟩
  · rintro ⟨answer, rest, rfl, path⟩
    exact .ask path

theorem path_bind_iff {d : Dialogue α} {f : α → Dialogue β} {steps : List Step} {b : β} :
    Path (d.bind f) steps b ↔
      ∃ first a rest, steps = first ++ rest ∧ Path d first a ∧ Path (f a) rest b := by
  induction d generalizing steps with
  | done a =>
      constructor
      · intro path
        exact ⟨[], a, steps, rfl, .done a, path⟩
      · rintro ⟨first, a', rest, rfl, here, path⟩
        obtain ⟨rfl, rfl⟩ := path_done_iff.1 here
        exact path
  | ask q next ih =>
      constructor
      · intro whole
        obtain ⟨answer, tail, rfl, path⟩ := path_ask_iff.1 whole
        obtain ⟨first, a, rest, rfl, here, path⟩ := (ih answer).1 path
        exact ⟨⟨q, answer⟩ :: first, a, rest, rfl, .ask here, path⟩
      · rintro ⟨first, a, rest, rfl, asked, path⟩
        obtain ⟨answer, tail, rfl, here⟩ := path_ask_iff.1 asked
        exact .ask ((ih answer).2 ⟨tail, a, rest, rfl, here, path⟩)

/-- Of two ways through a dialogue neither goes on where the other ends. -/
theorem Path.eq_of_prefix {d : Dialogue α} {first second : List Step} {a b : α}
    (path : Path d first a) (other : Path d second b) (start : first <+: second) :
    first = second ∧ a = b := by
  induction path generalizing second with
  | done a =>
      obtain ⟨rfl, rfl⟩ := path_done_iff.1 other
      exact ⟨rfl, rfl⟩
  | ask rest ih =>
      obtain ⟨answer, later, rfl, next⟩ := path_ask_iff.1 other
      obtain ⟨same, start'⟩ := List.cons_prefix_cons.1 start
      cases same
      obtain ⟨rfl, rfl⟩ := ih next start'
      exact ⟨rfl, rfl⟩

/-! ### Runs are ways through -/

/-- The questions and answers of a run in surroundings, in their order. -/
def transcript (surroundings : Surroundings σ) : Dialogue α → σ → List Step
  | done _, _ => []
  | ask q next, s =>
      let (answer, s) := surroundings.answer q s
      ⟨q, answer⟩ :: transcript surroundings (next answer) s

/-- A run in surroundings is a way through the dialogue. -/
theorem path_transcript (surroundings : Surroundings σ) (d : Dialogue α) (s : σ) :
    Path d (transcript surroundings d s) (run surroundings d s).1 := by
  induction d generalizing s with
  | done a => exact .done a
  | ask q next ih => exact .ask (ih _ _)

/-! ### The entries that are shown -/

/-- A step is seen when the log entries below a level are not. -/
def Step.isShown (least : Level) : Step → Bool
  | ⟨.log entry, _⟩ => least.rank ≤ entry.level.rank
  | _ => true

/-- A way through a dialogue without the log entries below a level is a way through the dialogue, with the
steps that are not seen left out. -/
theorem exists_path_of_keepLog {d : Dialogue α} {least : Level} {steps : List Step} {a : α}
    (path : Path (d.keepLog least) steps a) :
    ∃ whole, Path d whole a ∧ steps = whole.filter (Step.isShown least) := by
  induction d generalizing steps with
  | done b =>
      obtain ⟨rfl, rfl⟩ := path_done_iff.1 path
      exact ⟨[], .done a, rfl⟩
  | ask q next ih =>
      cases q with
      | log entry =>
          rw [keepLog] at path
          split at path
          case isTrue hidden =>
              obtain ⟨whole, here, rfl⟩ := ih () path
              refine ⟨⟨.log entry, ()⟩ :: whole, .ask here, ?_⟩
              rw [List.filter_cons_of_neg]
              simpa [Step.isShown] using hidden
          case isFalse shown =>
              obtain ⟨answer, rest, rfl, later⟩ := path_ask_iff.1 path
              obtain ⟨whole, here, rfl⟩ := ih answer later
              refine ⟨⟨.log entry, answer⟩ :: whole, .ask here, ?_⟩
              rw [List.filter_cons_of_pos]
              simpa [Step.isShown] using shown
      | _ =>
          obtain ⟨answer, rest, rfl, later⟩ := path_ask_iff.1 path
          obtain ⟨whole, here, rfl⟩ := ih answer later
          exact ⟨⟨_, answer⟩ :: whole, .ask here, rfl⟩

/-! ### What a dialogue asks for -/

/-- Every question that a dialogue can come to satisfies a condition. -/
inductive Asks (P : Query → Prop) : Dialogue α → Prop where
  | done (a : α) : Asks P (done a)
  | ask {q : Query} {next : q.Answer → Dialogue α} (holds : P q)
      (later : ∀ answer, Asks P (next answer)) : Asks P (ask q next)

theorem Asks.bind {P : Query → Prop} {d : Dialogue α} {f : α → Dialogue β}
    (first : d.Asks P) (second : ∀ a, (f a).Asks P) : (d.bind f).Asks P := by
  induction first with
  | done a => exact second a
  | ask holds later ih => exact .ask holds ih

theorem Path.asks {P : Query → Prop} {d : Dialogue α} {steps : List Step} {a : α}
    (path : Path d steps a) (asks : d.Asks P) : ∀ step ∈ steps, P step.query := by
  induction path with
  | done a => simp
  | ask rest ih =>
      cases asks with
      | ask holds later =>
          intro step member
          cases member with
          | head => exact holds
          | tail _ member => exact ih (later _) step member

/-! ### What is written -/

/-- The octets that a step sends to the device. -/
def Step.sent? : Step → Option Octets
  | ⟨.write octets, _⟩ => some octets
  | _ => none

/-- What the steps send to the device, write by write. -/
def sent (steps : List Step) : List Octets :=
  steps.filterMap Step.sent?

/-- The questions other than writes to the device. -/
def Silent (q : Query) : Prop := ∀ octets, q ≠ .write octets

@[simp] theorem sent_nil : sent [] = [] := rfl

@[simp] theorem sent_append (first second : List Step) :
    sent (first ++ second) = sent first ++ sent second := List.filterMap_append

theorem sent_eq_nil {steps : List Step} (silent : ∀ step ∈ steps, Silent step.query) :
    sent steps = [] := by
  refine List.filterMap_eq_nil_iff.2 fun step member => ?_
  have quiet := silent step member
  obtain ⟨q, answer⟩ := step
  cases q with
  | write octets => exact absurd rfl (quiet octets)
  | _ => rfl

end Dialogue

/-! ### Sessions -/

namespace Session

open Dialogue (Step)

variable {ε ε' α β : Type}

/-- One way through a session. -/
abbrev Path (s : Session ε α) (steps : List Step) (result : Except ε α) : Prop :=
  Dialogue.Path s.run steps result

theorem path_pure_iff {a : α} {steps : List Step} {result : Except ε α} :
    Path (pure a) steps result ↔ steps = [] ∧ result = .ok a :=
  Dialogue.path_done_iff

theorem path_throw_iff {e : ε} {steps : List Step} {result : Except ε α} :
    Path (throw e) steps result ↔ steps = [] ∧ result = .error e :=
  Dialogue.path_done_iff

/-- A session and what follows it: the first part fails, or both are gone through. -/
theorem path_bind_iff {s : Session ε α} {f : α → Session ε β} {steps : List Step}
    {result : Except ε β} :
    Path (s >>= f) steps result ↔
      (∃ e, Path s steps (.error e) ∧ result = .error e) ∨
      ∃ first a rest, steps = first ++ rest ∧ Path s first (.ok a) ∧ Path (f a) rest result := by
  have cut : Path (s >>= f) steps result ↔
      ∃ first x rest, steps = first ++ rest ∧ Path s first x ∧
        Dialogue.Path (ExceptT.bindCont f x) rest result := Dialogue.path_bind_iff
  rw [cut]
  constructor
  · rintro ⟨first, x, rest, rfl, here, path⟩
    cases x with
    | error e =>
        obtain ⟨rfl, rfl⟩ := Dialogue.path_done_iff.1 path
        exact .inl ⟨e, by simpa using here, rfl⟩
    | ok a => exact .inr ⟨first, a, rest, rfl, here, path⟩
  · rintro (⟨e, here, rfl⟩ | ⟨first, a, rest, rfl, here, path⟩)
    · exact ⟨steps, .error e, [], by simp, here, .done _⟩
    · exact ⟨first, .ok a, rest, rfl, here, path⟩

theorem path_ofDialogue_bind_iff {d : Dialogue α} {f : α → Session ε β} {steps : List Step}
    {result : Except ε β} :
    Path (ofDialogue d >>= f) steps result ↔
      ∃ first a rest, steps = first ++ rest ∧ Dialogue.Path d first a ∧ Path (f a) rest result := by
  have flat : (ofDialogue d >>= f : Session ε β).run = d.bind fun a => (f a).run :=
    Dialogue.bind_bind d _ _
  rw [Path, flat]
  exact Dialogue.path_bind_iff

theorem path_query_bind_iff {q : Query} {f : q.Answer → Session ε β} {steps : List Step}
    {result : Except ε β} :
    Path (query q >>= f) steps result ↔
      ∃ answer rest, steps = ⟨q, answer⟩ :: rest ∧ Path (f answer) rest result :=
  Dialogue.path_ask_iff

theorem run_query_bind {σ : Type} (surroundings : Dialogue.Surroundings σ) (q : Query)
    (f : q.Answer → Session ε β) (s : σ) :
    Dialogue.run surroundings (query q >>= f).run s =
      Dialogue.run surroundings (f (surroundings.answer q s).1).run (surroundings.answer q s).2 :=
  rfl

theorem transcript_query_bind {σ : Type} (surroundings : Dialogue.Surroundings σ) (q : Query)
    (f : q.Answer → Session ε β) (s : σ) :
    Dialogue.transcript surroundings (query q >>= f).run s =
      ⟨q, (surroundings.answer q s).1⟩ ::
        Dialogue.transcript surroundings (f (surroundings.answer q s).1).run
          (surroundings.answer q s).2 :=
  rfl

theorem path_log_bind_iff {level : Level} {text : String} {f : Unit → Session ε β}
    {steps : List Step} {result : Except ε β} :
    Path (log level text >>= f) steps result ↔
      ∃ rest, steps = ⟨.log ⟨level, text⟩, ()⟩ :: rest ∧ Path (f ()) rest result := by
  refine path_query_bind_iff.trans ⟨?_, ?_⟩
  · rintro ⟨⟨⟩, rest, rfl, path⟩
    exact ⟨rest, rfl, path⟩
  · rintro ⟨rest, rfl, path⟩
    exact ⟨(), rest, rfl, path⟩

theorem path_ofExcept_bind_iff {x : Except ε α} {f : α → Session ε β} {steps : List Step}
    {result : Except ε β} :
    Path (ofExcept x >>= f) steps result ↔
      (∃ e, x = .error e ∧ steps = [] ∧ result = .error e) ∨
      ∃ a, x = .ok a ∧ Path (f a) steps result := by
  cases x with
  | error e =>
      refine Dialogue.path_done_iff.trans ⟨?_, ?_⟩
      · rintro ⟨rfl, rfl⟩
        exact .inl ⟨e, rfl, rfl, rfl⟩
      · rintro (⟨e, ⟨⟩, rfl, rfl⟩ | ⟨a, ⟨⟩, -⟩)
        exact ⟨rfl, rfl⟩
  | ok a =>
      constructor
      · intro path
        exact .inr ⟨a, rfl, path⟩
      · rintro (⟨e, ⟨⟩, -⟩ | ⟨a, ⟨⟩, path⟩)
        exact path

theorem path_ofExcept_mapError_bind_iff {x : Except ε α} {g : ε → ε'} {f : α → Session ε' β}
    {steps : List Step} {result : Except ε' β} :
    Path (ofExcept (x.mapError g) >>= f) steps result ↔
      (∃ e, x = .error e ∧ steps = [] ∧ result = .error (g e)) ∨
      ∃ a, x = .ok a ∧ Path (f a) steps result := by
  cases x with
  | error e =>
      refine path_ofExcept_bind_iff.trans ⟨?_, ?_⟩
      · rintro (⟨e', ⟨⟩, rfl, rfl⟩ | ⟨a, ⟨⟩, -⟩)
        exact .inl ⟨e, rfl, rfl, rfl⟩
      · rintro (⟨e', ⟨⟩, rfl, rfl⟩ | ⟨a, ⟨⟩, -⟩)
        exact .inl ⟨g e, rfl, rfl, rfl⟩
  | ok a =>
      refine path_ofExcept_bind_iff.trans ⟨?_, ?_⟩
      · rintro (⟨e, ⟨⟩, -⟩ | ⟨a', ⟨⟩, path⟩)
        exact .inr ⟨a, rfl, path⟩
      · rintro (⟨e, ⟨⟩, -⟩ | ⟨a', ⟨⟩, path⟩)
        exact .inr ⟨a, rfl, path⟩

theorem path_mapError_iff {f : ε → ε'} {s : Session ε α} {steps : List Step}
    {result : Except ε' α} :
    Path (mapError f s) steps result ↔ ∃ inner, Path s steps inner ∧ result = inner.mapError f := by
  refine Dialogue.path_bind_iff.trans ⟨?_, ?_⟩
  · rintro ⟨first, inner, rest, rfl, here, path⟩
    refine ⟨inner, ?_⟩
    cases inner <;> obtain ⟨rfl, rfl⟩ := Dialogue.path_done_iff.1 path <;>
      exact ⟨by simpa using here, rfl⟩
  · rintro ⟨inner, here, rfl⟩
    refine ⟨steps, inner, [], by simp, here, ?_⟩
    cases inner <;> exact .done _

/-- Every question that a session can come to satisfies a condition. -/
def Asks (P : Query → Prop) (s : Session ε α) : Prop :=
  Dialogue.Asks P s.run

section Asks

variable {P : Query → Prop}

theorem asks_pure (a : α) : Asks P (pure a : Session ε α) := .done _

theorem asks_throw (e : ε) : Asks P (throw e : Session ε α) := .done _

theorem asks_ofExcept (x : Except ε α) : Asks P (ofExcept x) := .done _

theorem asks_query {q : Query} (holds : P q) : Asks P (query q : Session ε q.Answer) :=
  .ask holds fun _ => .done _

theorem asks_log {level : Level} {text : String} (holds : P (.log ⟨level, text⟩)) :
    Asks P (log level text : Session ε Unit) :=
  asks_query holds

theorem asks_bind {s : Session ε α} {f : α → Session ε β} (first : Asks P s)
    (second : ∀ a, Asks P (f a)) : Asks P (s >>= f) := by
  refine Dialogue.Asks.bind first fun x => ?_
  cases x with
  | error e => exact .done _
  | ok a => exact second a

theorem asks_mapError {f : ε → ε'} {s : Session ε α} (inner : Asks P s) :
    Asks P (mapError f s) := by
  refine Dialogue.Asks.bind inner fun x => ?_
  cases x <;> exact .done _

theorem Path.asks {s : Session ε α} {steps : List Step} {result : Except ε α}
    (path : Path s steps result) (asks : Asks P s) : ∀ step ∈ steps, P step.query :=
  Dialogue.Path.asks path asks

end Asks

/-- A session that sends nothing to the device. -/
abbrev Silent (s : Session ε α) : Prop := Asks Dialogue.Silent s

theorem Path.sent_eq_nil {s : Session ε α} {steps : List Step} {result : Except ε α}
    (path : Path s steps result) (silent : Silent s) : Dialogue.sent steps = [] :=
  Dialogue.sent_eq_nil (path.asks silent)

end Session

end SecureElement
