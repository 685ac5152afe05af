import SecureElement.Link.Exchange
import SecureElement.Proofs.Link.Paths

/-!
What an exchange asks for.

An exchange begins with its settings, the command line and the payload, in this order and each in one
write (`Exchange.opening`); from then on it only listens. So what it sends is known from the command
and the payload, whatever the device answers (`Exchange.sent_eq`).
-/

namespace SecureElement.Exchange

open Dialogue (Step sent)
open Session (Asks Silent)

section Asks

variable {P : Query → Prop} (log : ∀ entry, P (.log entry))
include log

theorem asks_logBoot (raw : Octets) : Asks P (logBoot raw) := by
  unfold logBoot
  split
  · exact Session.asks_pure _
  · split <;> exact Session.asks_log (log _)

variable (readLine : P .readLine) (elapsed : P .elapsed)
include readLine elapsed

omit log elapsed in
theorem asks_readLine : Asks P Exchange.readLine := by
  refine Session.asks_bind (Session.asks_query readLine) fun answer => ?_
  cases answer with
  | ok raw => exact Session.asks_pure _
  | error fault => exact Session.asks_throw _

omit log readLine in
theorem asks_since (start : Duration) : Asks P (since start) :=
  Session.asks_bind (Session.asks_query elapsed) fun _ => Session.asks_pure _

omit log readLine in
theorem asks_checkDeadline (command : String) (deadline : Option Duration) (start : Duration) :
    Asks P (checkDeadline command deadline start) := by
  cases deadline with
  | none => exact Session.asks_pure _
  | some deadline =>
      refine Session.asks_bind (asks_since elapsed start) fun passed => ?_
      split
      · exact Session.asks_throw _
      · exact Session.asks_pure _

theorem asks_pollReady (window start : Duration) (reads : Nat) :
    Asks P (pollReady window start reads) := by
  induction reads with
  | zero => exact Session.asks_throw _
  | succ reads ih =>
      refine Session.asks_bind (asks_readLine readLine) fun raw => ?_
      refine Session.asks_bind (asks_logBoot log raw) fun _ => ?_
      split
      · exact Session.asks_bind (Session.asks_log (log _)) fun _ => Session.asks_pure _
      · refine Session.asks_bind (asks_since elapsed start) fun passed => ?_
        split
        · exact Session.asks_bind (Session.asks_log (log _)) fun _ => Session.asks_pure _
        · exact ih

theorem asks_waitForReady (settings : ExchangeSettings) (reads : Nat) :
    Asks P (waitForReady settings reads) := by
  refine Session.asks_bind (Session.asks_log (log _)) fun _ => ?_
  refine Session.asks_bind (Session.asks_query elapsed) fun start => ?_
  exact asks_pollReady log readLine elapsed _ _ _

theorem asks_collect (command : String) (deadline : Option Duration) (start : Duration)
    (reads : Nat) (reading : Reading) :
    Asks P (collect command deadline start reads reading) := by
  induction reads generalizing reading with
  | zero => exact Session.asks_throw _
  | succ reads ih =>
      refine Session.asks_bind (asks_checkDeadline elapsed _ _ _) fun _ => ?_
      refine Session.asks_bind (asks_readLine readLine) fun raw => ?_
      split
      · exact ih _
      · split
        · exact Session.asks_bind (Session.asks_log (log _)) fun _ => ih _
        · refine Session.asks_bind (Session.asks_log (log _)) fun _ => ?_
          split
          · exact ih _
          · exact Session.asks_pure _
          · exact Session.asks_throw _

theorem asks_exec (setReadTimeout : ∀ timeout, P (.setReadTimeout timeout))
    (write : ∀ octets, P (.write octets)) (sleep : ∀ pause, P (.sleep pause))
    (settings : ExchangeSettings) (reads : Nat) (command : String) (payload : Option Octets) :
    Asks P (exec settings reads command payload) := by
  refine Session.asks_bind (Session.asks_log (log _)) fun _ => ?_
  refine Session.asks_bind (Session.asks_query (setReadTimeout _)) fun _ => ?_
  refine Session.asks_bind (Session.asks_query (write _)) fun _ => ?_
  have sends : Asks P (sendPayload settings payload) := by
    cases payload with
    | none => exact Session.asks_pure _
    | some payload =>
        refine Session.asks_bind (Session.asks_query (sleep _)) fun _ => ?_
        refine Session.asks_bind (Session.asks_query (write _)) fun _ => ?_
        exact Session.asks_log (log _)
  refine Session.asks_bind sends fun _ => ?_
  refine Session.asks_bind (Session.asks_query elapsed) fun start => ?_
  exact asks_collect log readLine elapsed _ _ _ _ _

end Asks

/-! ### The opening of an exchange -/

/-- The steps that send a payload. -/
def payloadSteps (settings : ExchangeSettings) : Option Octets → List Step
  | none => []
  | some payload =>
      [⟨.sleep settings.payloadSettle, ()⟩, ⟨.write payload, ()⟩,
        ⟨.log ⟨.debug, "Wrote " ++ payload.length.repr ++ " bytes of payload"⟩, ()⟩]

/-- The steps of an exchange before its first read. -/
def opening (settings : ExchangeSettings) (command : String) (payload : Option Octets) :
    List Step :=
  [⟨.log ⟨.debug, "Sending command"⟩, ()⟩, ⟨.setReadTimeout settings.commandReadTimeout, ()⟩,
    ⟨.write (commandLine command), ()⟩] ++ payloadSteps settings payload

theorem path_sendPayload_iff {settings : ExchangeSettings} {payload : Option Octets}
    {steps : List Step} {result : Except ExchangeError Unit} :
    Session.Path (sendPayload settings payload) steps result ↔
      steps = payloadSteps settings payload ∧ result = .ok () := by
  cases payload with
  | none => exact Session.path_pure_iff
  | some payload =>
      constructor
      · intro path
        cases path with | ask path => cases path with | ask path => cases path with | ask path =>
        obtain ⟨rfl, rfl⟩ := Dialogue.path_done_iff.1 path
        exact ⟨rfl, rfl⟩
      · rintro ⟨rfl, rfl⟩
        exact .ask (.ask (.ask (.done _)))

/-- An exchange opens in one way; then it reads the clock and collects the response. -/
theorem path_exec_iff {settings : ExchangeSettings} {reads : Nat} {command : String}
    {payload : Option Octets} {steps : List Step} {result : Except ExchangeError Response} :
    Session.Path (exec settings reads command payload) steps result ↔
      ∃ start rest,
        steps = opening settings command payload ++ ⟨.elapsed, start⟩ :: rest ∧
        Session.Path (collect command settings.commandDeadline start reads .awaitingStatus)
          rest result := by
  constructor
  · intro path
    cases path with | ask path => cases path with | ask path => cases path with | ask path =>
    rcases Session.path_bind_iff.1 path with
      ⟨e, failed, -⟩ | ⟨first, ⟨⟩, rest, cut, sending, listening⟩
    · cases (path_sendPayload_iff.1 failed).2
    · obtain ⟨rfl, -⟩ := path_sendPayload_iff.1 sending
      cases listening with | ask listening =>
      exact ⟨_, _, by rw [cut]; rfl, listening⟩
  · rintro ⟨start, rest, rfl, path⟩
    refine .ask (.ask (.ask ?_))
    exact Session.path_bind_iff.2 (.inr ⟨_, (), _, rfl, path_sendPayload_iff.2 ⟨rfl, rfl⟩, .ask path⟩)

/-! ### What an exchange sends -/

theorem sent_opening (settings : ExchangeSettings) (command : String) (payload : Option Octets) :
    sent (opening settings command payload) = commandLine command :: payload.toList := by
  cases payload <;> rfl

theorem silent_collect (command : String) (deadline : Option Duration) (start : Duration)
    (reads : Nat) (reading : Reading) :
    Silent (collect command deadline start reads reading) :=
  asks_collect (by simp [Dialogue.Silent]) (by simp [Dialogue.Silent])
    (by simp [Dialogue.Silent]) _ _ _ _ _

/-- An exchange sends its command line and its payload, and nothing else. -/
theorem sent_eq {settings : ExchangeSettings} {reads : Nat} {command : String}
    {payload : Option Octets} {steps : List Step} {result : Except ExchangeError Response}
    (path : Session.Path (exec settings reads command payload) steps result) :
    sent steps = commandLine command :: payload.toList := by
  obtain ⟨start, rest, cut, listening⟩ := path_exec_iff.1 path
  have quiet : sent (⟨.elapsed, start⟩ :: rest) = sent rest := rfl
  rw [cut, Dialogue.sent_append, sent_opening, quiet,
    listening.sent_eq_nil (silent_collect _ _ _ _ _), List.append_nil]

end SecureElement.Exchange
