import SecureElement.Proofs.Lists.Cuts
import SecureElement.Proofs.Provisioning.Stages

/-!
The history of a run.

A run is a row of rounds, each a command with the steps that led to it and those of its exchange, and
some last steps in which nothing is sent. `Reached` says which rounds lead to which stage: every one of
them ended with a response that tells success and holds what the run needs of it. `Ended` lists the ways
in which a run ends. Every way through a run is such a history (`ended_of_path`).
-/

namespace SecureElement.Provisioning

open Dialogue (sent)

/-- A command that was sent, with the steps that led to it and those of its exchange. -/
structure Round where
  before : List Dialogue.Step
  command : Command
  payload : Option Octets
  during : List Dialogue.Step
  outcome : Except ExchangeError Response

namespace Round

/-- All steps of a round. -/
def steps (round : Round) : List Dialogue.Step := round.before ++ round.during

/-- The body of the response, if it tells success. -/
def body? (round : Round) : Option String :=
  match round.outcome with
  | .ok ⟨true, body⟩ => some body
  | _ => none

theorem body?_eq_some {round : Round} {body : String} :
    round.body? = some body ↔ round.outcome = .ok ⟨true, body⟩ := by
  unfold body?
  split
  · next text told => simp [told]
  · next other =>
      simp only [reduceCtorEq, false_iff]
      intro told
      exact other body told

end Round

variable {config : RunConfig} {reads : Nat}

/-- At a stage the steps before a round lead to its command, and its exchange was gone through.
`learn` is what the run takes from the body of the response. -/
structure Stage.Sends (config : RunConfig) (reads : Nat) {n : Nat} (stage : Stage (n + 1))
    (round : Round) (learn : String → Except ProvisioningFailure (Stage n)) : Prop where
  prepared : Session.Path (stage.prepare config reads) round.before
    (.ok (.send round.command round.payload learn))
  exchanged : Session.Path
    (Exchange.exec config.exchange reads round.command.text round.payload)
    round.during round.outcome

/-- The rounds that lead to a stage. -/
inductive Reached (config : RunConfig) (reads : Nat) :
    List Round → {n : Nat} → Stage n → Prop where
  | start : Reached config reads [] .start
  | next {rounds : List Round} {n : Nat} {stage : Stage (n + 1)} {round : Round}
      {learn : String → Except ProvisioningFailure (Stage n)} {body : String} {after : Stage n}
      (reached : Reached config reads rounds stage) (sends : stage.Sends config reads round learn)
      (told : round.body? = some body) (learnt : learn body = .ok after) :
      Reached config reads (rounds ++ [round]) after

/-- How a run ends: its rounds, the steps after them and its result. -/
inductive Ended (config : RunConfig) (reads : Nat) :
    List Round → List Dialogue.Step → Except ProvisioningFailure Outcome → Prop where
  | finished {rounds : List Round} {n : Nat} {stage : Stage n} {tail : List Dialogue.Step}
      {outcome : Outcome} (reached : Reached config reads rounds stage)
      (path : Session.Path (stage.prepare config reads) tail (.ok (.finish outcome))) :
      Ended config reads rounds tail (.ok outcome)
  | stopped {rounds : List Round} {n : Nat} {stage : Stage n} {tail : List Dialogue.Step}
      {failure : ProvisioningFailure} (reached : Reached config reads rounds stage)
      (path : Session.Path (stage.prepare config reads) tail (.error failure)) :
      Ended config reads rounds tail (.error failure)
  | broken {rounds : List Round} {n : Nat} {stage : Stage (n + 1)} {round : Round}
      {learn : String → Except ProvisioningFailure (Stage n)} {error : ExchangeError}
      (reached : Reached config reads rounds stage) (sends : stage.Sends config reads round learn)
      (told : round.outcome = .error error) :
      Ended config reads (rounds ++ [round]) [] (.error (.exchange error))
  | refused {rounds : List Round} {n : Nat} {stage : Stage (n + 1)} {round : Round}
      {learn : String → Except ProvisioningFailure (Stage n)} {body : String}
      (reached : Reached config reads rounds stage) (sends : stage.Sends config reads round learn)
      (told : round.outcome = .ok ⟨false, body⟩) :
      Ended config reads (rounds ++ [round])
        [⟨.log ⟨.error, CommandFailure.message ⟨round.command.text, body⟩⟩, ()⟩]
        (.error (.command ⟨round.command.text, body⟩))
  | unlearnt {rounds : List Round} {n : Nat} {stage : Stage (n + 1)} {round : Round}
      {learn : String → Except ProvisioningFailure (Stage n)} {body : String}
      {failure : ProvisioningFailure}
      (reached : Reached config reads rounds stage) (sends : stage.Sends config reads round learn)
      (told : round.body? = some body) (learnt : learn body = .error failure) :
      Ended config reads (rounds ++ [round]) [] (.error failure)

/-- A round is due: the rounds before it led to a stage at which it is sent. -/
def Due (config : RunConfig) (reads : Nat) (earlier : List Round) (round : Round) : Prop :=
  ∃ (n : Nat) (stage : Stage (n + 1)) (learn : String → Except ProvisioningFailure (Stage n)),
    Reached config reads earlier stage ∧ stage.Sends config reads round learn

theorem Reached.due {rounds earlier later : List Round} {round : Round} {n : Nat} {stage : Stage n}
    (reached : Reached config reads rounds stage) (cut : rounds = earlier ++ round :: later) :
    Due config reads earlier round := by
  induction reached generalizing later with
  | start => simp at cut
  | next reached sends told learnt ih =>
      rcases Lists.cut_append_singleton cut with ⟨rfl, rfl, rfl⟩ | ⟨rest, rfl, rfl⟩
      · exact ⟨_, _, _, reached, sends⟩
      · exact ih rfl

theorem Ended.due {rounds earlier later : List Round} {round : Round} {tail : List Dialogue.Step}
    {result : Except ProvisioningFailure Outcome} (ended : Ended config reads rounds tail result)
    (cut : rounds = earlier ++ round :: later) : Due config reads earlier round := by
  cases ended with
  | finished reached path => exact reached.due cut
  | stopped reached path => exact reached.due cut
  | broken reached sends | refused reached sends | unlearnt reached sends =>
      rcases Lists.cut_append_singleton cut with ⟨rfl, rfl, rfl⟩ | ⟨rest, rfl, rfl⟩
      · exact ⟨_, _, _, reached, sends⟩
      · exact reached.due rfl

/-- If every round succeeded, a run ended between two commands or with a response that did not hold what
was asked for. -/
theorem Ended.cases_of_succeeded {rounds : List Round} {tail : List Dialogue.Step}
    {result : Except ProvisioningFailure Outcome} (ended : Ended config reads rounds tail result)
    (succeeded : ∀ round ∈ rounds, ∃ body, round.body? = some body) :
    (∃ (n : Nat) (stage : Stage n) (outcome : Outcome), Reached config reads rounds stage ∧
      Session.Path (stage.prepare config reads) tail (.ok (.finish outcome)) ∧
      result = .ok outcome) ∨
    (∃ (n : Nat) (stage : Stage n) (failure : ProvisioningFailure),
      Reached config reads rounds stage ∧
      Session.Path (stage.prepare config reads) tail (.error failure) ∧ result = .error failure) ∨
    ∃ (n : Nat) (stage : Stage (n + 1)) (earlier : List Round) (round : Round)
      (learn : String → Except ProvisioningFailure (Stage n)) (body : String)
      (failure : ProvisioningFailure), rounds = earlier ++ [round] ∧
      Reached config reads earlier stage ∧ stage.Sends config reads round learn ∧
      round.body? = some body ∧ learn body = .error failure := by
  cases ended with
  | finished reached path => exact .inl ⟨_, _, _, reached, path, rfl⟩
  | stopped reached path => exact .inr (.inl ⟨_, _, _, reached, path, rfl⟩)
  | unlearnt reached sends told learnt =>
      exact .inr (.inr ⟨_, _, _, _, _, _, _, rfl, reached, sends, told, learnt⟩)
  | @broken _ _ _ round _ _ reached sends told =>
      obtain ⟨body, answered⟩ := succeeded round (by simp)
      rw [Round.body?_eq_some, told] at answered
      cases answered
  | @refused _ _ _ round _ _ reached sends told =>
      obtain ⟨body, answered⟩ := succeeded round (by simp)
      rw [Round.body?_eq_some, told] at answered
      cases answered

/-! ### One stage after another -/

theorem Reached.length {rounds : List Round} {n : Nat} {stage : Stage n}
    (reached : Reached config reads rounds stage) : rounds.length + n = 8 := by
  induction reached with
  | start => rfl
  | next reached sends told learnt ih =>
      rw [List.length_append, List.length_singleton]
      omega

/-- The last of the rounds that lead to a stage led there from the stage before. -/
theorem Reached.of_append {earlier : List Round} {round : Round} {n : Nat} {stage : Stage n}
    (reached : Reached config reads (earlier ++ [round]) stage) :
    ∃ (before : Stage (n + 1)) (learn : String → Except ProvisioningFailure (Stage n)) (body : String),
      Reached config reads earlier before ∧ before.Sends config reads round learn ∧
        round.body? = some body ∧ learn body = .ok stage := by
  generalize whole : earlier ++ [round] = rounds at reached
  cases reached with
  | start => simp at whole
  | next reached sends told learnt =>
      obtain ⟨rfl, same⟩ := List.append_inj' whole rfl
      cases same
      exact ⟨_, _, _, reached, sends, told, learnt⟩

theorem Stage.Sends.unique {n : Nat} {stage : Stage (n + 1)} {round : Round}
    {learn other : String → Except ProvisioningFailure (Stage n)}
    (sends : stage.Sends config reads round learn) (again : stage.Sends config reads round other) :
    learn = other := by
  have same := (Dialogue.Path.eq_of_prefix sends.prepared again.prepared (List.prefix_refl _)).2
  cases same
  rfl

/-- Rounds lead to one stage only. -/
theorem Reached.unique {rounds : List Round} {n : Nat} {stage other : Stage n}
    (reached : Reached config reads rounds stage) (again : Reached config reads rounds other) :
    stage = other := by
  induction reached with
  | start =>
      generalize none : ([] : List Round) = rounds at again
      cases again with
      | start => rfl
      | next => simp at none
  | next reached sends told learnt ih =>
      obtain ⟨before, learn, body, reached', sends', told', learnt'⟩ := again.of_append
      obtain rfl := ih reached'
      obtain rfl := sends.unique sends'
      rw [told] at told'
      cases told'
      rw [learnt] at learnt'
      cases learnt'
      rfl

/-- A stage that was reached was gone through: the run ended there, or the next round came from it. -/
theorem Ended.at_stage {rounds first : List Round} {tail : List Dialogue.Step}
    {result : Except ProvisioningFailure Outcome} {n : Nat} {stage : Stage n}
    (ended : Ended config reads rounds tail result) (reached : Reached config reads first stage)
    (start : first <+: rounds) :
    (rounds = first ∧
      ((∃ outcome, Session.Path (stage.prepare config reads) tail (.ok (.finish outcome)) ∧
          result = .ok outcome) ∨
        ∃ failure, Session.Path (stage.prepare config reads) tail (.error failure) ∧
          result = .error failure)) ∨
    ∃ round later next, rounds = first ++ round :: later ∧
      Session.Path (stage.prepare config reads) round.before (.ok next) := by
  obtain ⟨rest, rfl⟩ := start
  have same : ∀ {m : Nat} {other : Stage m}, Reached config reads first other → m = n := by
    intro m other again
    have here := reached.length
    have there := again.length
    omega
  cases rest with
  | cons round later =>
      obtain ⟨m, other, learn, again, sends⟩ := ended.due rfl
      obtain rfl := same again
      obtain rfl := reached.unique again
      exact .inr ⟨round, later, _, rfl, sends.prepared⟩
  | nil =>
      rw [List.append_nil] at ended ⊢
      refine .inl ⟨rfl, ?_⟩
      cases ended with
      | finished again path =>
          obtain rfl := same again
          obtain rfl := reached.unique again
          exact .inl ⟨_, path, rfl⟩
      | stopped again path =>
          obtain rfl := same again
          obtain rfl := reached.unique again
          exact .inr ⟨_, path, rfl⟩
      -- A stage is reached only by rounds that succeeded and held what was asked for.
      | broken again sends told =>
          obtain ⟨before, learn, body, -, -, succeeded, -⟩ := reached.of_append
          rw [Round.body?_eq_some, told] at succeeded
          cases succeeded
      | refused again sends told =>
          obtain ⟨before, learn, body, -, -, succeeded, -⟩ := reached.of_append
          rw [Round.body?_eq_some, told] at succeeded
          cases succeeded
      | @unlearnt _ m other _ _ _ _ again sends told learnt =>
          obtain ⟨before, learn, body, reached', sends', told', learnt'⟩ := reached.of_append
          obtain rfl : m = n := by
            have here := reached'.length
            have there := again.length
            omega
          obtain rfl := again.unique reached'
          obtain rfl := sends.unique sends'
          rw [told] at told'
          cases told'
          rw [learnt] at learnt'
          cases learnt'

/-! ### Every way through a run is a history -/

/-- A command that has to succeed goes through its exchange and then looks at the response. -/
theorem exchanged_of_path_execOk {command : Command} {payload : Option Octets}
    {steps : List Dialogue.Step} {result : Except ProvisioningFailure String}
    (path : Session.Path (execOk config reads command payload) steps result) :
    ∃ during outcome,
      Session.Path (Exchange.exec config.exchange reads command.text payload) during outcome ∧
      ((∃ error, outcome = .error error ∧ steps = during ∧ result = .error (.exchange error)) ∨
       (∃ body, outcome = .ok ⟨false, body⟩ ∧
         steps = during ++
           [⟨.log ⟨.error, CommandFailure.message ⟨command.text, body⟩⟩, ()⟩] ∧
         result = .error (.command ⟨command.text, body⟩)) ∨
       ∃ body, outcome = .ok ⟨true, body⟩ ∧ steps = during ∧ result = .ok body) := by
  rcases Session.path_bind_iff.1 path with
    ⟨failure, failed, rfl⟩ | ⟨during, response, rest, rfl, exchanged, checked⟩
  · obtain ⟨outcome, exchanged, mapped⟩ := Session.path_mapError_iff.1 failed
    cases outcome with
    | error error =>
        cases mapped
        exact ⟨steps, .error error, exchanged, .inl ⟨error, rfl, rfl, rfl⟩⟩
    | ok response => cases mapped
  · obtain ⟨outcome, inner, mapped⟩ := Session.path_mapError_iff.1 exchanged
    cases outcome with
    | error error => cases mapped
    | ok response =>
        cases mapped
        refine ⟨during, .ok response, inner, .inr ?_⟩
        obtain ⟨success, body⟩ := response
        cases success with
        | false =>
            obtain ⟨last, rfl, stopped⟩ := Session.path_log_bind_iff.1 checked
            obtain ⟨rfl, rfl⟩ := Session.path_throw_iff.1 stopped
            exact .inl ⟨body, rfl, rfl, rfl⟩
        | true =>
            obtain ⟨rfl, rfl⟩ := Session.path_pure_iff.1 checked
            exact .inr ⟨body, rfl, by simp, rfl⟩

/-- From a stage that was reached, a run goes on to an end. -/
theorem ended_of_path_drive {n : Nat} {stage : Stage n} {rounds : List Round}
    {steps : List Dialogue.Step} {result : Except ProvisioningFailure Outcome}
    (reached : Reached config reads rounds stage)
    (path : Session.Path (drive config reads n stage) steps result) :
    ∃ later tail, steps = later.flatMap Round.steps ++ tail ∧
      Ended config reads (rounds ++ later) tail result := by
  induction n generalizing rounds steps with
  | zero =>
      rcases Session.path_bind_iff.1 path with
        ⟨failure, prepared, rfl⟩ | ⟨first, next, rest, rfl, prepared, finished⟩
      · exact ⟨[], steps, rfl, by simpa using .stopped reached prepared⟩
      · cases next with
        | finish outcome =>
            obtain ⟨rfl, rfl⟩ := Session.path_pure_iff.1 finished
            exact ⟨[], first, by simp, by simpa using .finished reached prepared⟩
  | succ n ih =>
      rcases Session.path_bind_iff.1 path with
        ⟨failure, prepared, rfl⟩ | ⟨first, next, rest, rfl, prepared, followed⟩
      · exact ⟨[], steps, rfl, by simpa using .stopped reached prepared⟩
      · cases next with
        | finish outcome =>
            obtain ⟨rfl, rfl⟩ := Session.path_pure_iff.1 followed
            exact ⟨[], first, by simp, by simpa using .finished reached prepared⟩
        | send command payload learn =>
            rcases Session.path_bind_iff.1 followed with
              ⟨failure, failed, rfl⟩ | ⟨second, body, third, rfl, succeeded, learning⟩
            · obtain ⟨during, outcome, exchanged, told⟩ := exchanged_of_path_execOk failed
              have sends : stage.Sends config reads ⟨first, command, payload, during, outcome⟩ learn :=
                ⟨prepared, exchanged⟩
              rcases told with ⟨error, rfl, rfl, ⟨⟩⟩ | ⟨body, rfl, rfl, ⟨⟩⟩ | ⟨body, -, -, ⟨⟩⟩
              · exact ⟨[_], [], by simp [Round.steps], .broken reached sends rfl⟩
              · exact ⟨[_], _, by simp [Round.steps], .refused reached sends rfl⟩
            · obtain ⟨during, outcome, exchanged, told⟩ := exchanged_of_path_execOk succeeded
              have sends : stage.Sends config reads ⟨first, command, payload, during, outcome⟩ learn :=
                ⟨prepared, exchanged⟩
              rcases told with ⟨error, -, -, ⟨⟩⟩ | ⟨body, -, -, ⟨⟩⟩ | ⟨body, rfl, rfl, ⟨⟩⟩
              rcases Session.path_ofExcept_bind_iff.1 learning with
                ⟨failure, learnt, rfl, rfl⟩ | ⟨after, learnt, driven⟩
              · exact ⟨[_], [], by simp [Round.steps], .unlearnt reached sends rfl learnt⟩
              · obtain ⟨later, tail, rfl, ended⟩ := ih (reached.next sends rfl learnt) driven
                refine ⟨⟨first, command, payload, second, .ok ⟨true, body⟩⟩ :: later, tail, ?_, ?_⟩
                · simp [Round.steps]
                · simpa using ended

/-- Every way through a run is a row of rounds and an end. -/
theorem ended_of_path {steps : List Dialogue.Step}
    {result : Except ProvisioningFailure Outcome}
    (path : Session.Path (run config reads) steps result) :
    ∃ rounds tail, steps = rounds.flatMap Round.steps ++ tail ∧
      Ended config reads rounds tail result := by
  rw [run_eq_drive] at path
  exact ended_of_path_drive .start path

/-- The trace of a run is a row of rounds and an end. -/
theorem ended_of_run {σ : Type} (config : RunConfig) (reads : Nat)
    (surroundings : Dialogue.Surroundings σ) (s : σ) :
    ∃ rounds tail,
      Dialogue.transcript surroundings (run config reads).run s = rounds.flatMap Round.steps ++ tail ∧
      Ended config reads rounds tail (Dialogue.run surroundings (run config reads).run s).1 :=
  ended_of_path (Dialogue.path_transcript surroundings (run config reads).run s)

end SecureElement.Provisioning
