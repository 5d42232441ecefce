import DeviceProtocol.Proofs.HostRequests
set_option autoImplicit false

namespace DeviceProtocol

/-- What is to be told about a failure: the message of a fault at its place, then each of its notes, at its own line or
else at the line of the fault. -/
def Failure.report : Failure → List ReportEntry
  | .fault f => ⟨f.line, f.file, f.message⟩ :: f.notes.map fun note => ⟨note.1.or f.line, f.file, note.2.message⟩
  | .crash _ => []

def reportOf {α : Type} : Except Failure α → List ReportEntry
  | .ok _ => []
  | .error e => e.report

theorem reportOf_map {α β : Type} (r : Except Failure α) (g : α → β) : reportOf (r.map g) = reportOf r := by
  cases r <;> rfl

namespace LogEvent

def asError? : LogEvent → Option ReportEntry
  | error entry => some entry
  | warning _ | trace _ => none

def collectedErrors (events : List LogEvent) : List ReportEntry :=
  (events.filter LogSink.collected.accepts).filterMap asError?

@[simp] theorem collectedErrors_append (events more : List LogEvent) :
    collectedErrors (events ++ more) = collectedErrors events ++ collectedErrors more := by
  simp [collectedErrors]

theorem collectedErrors_error (entries : List ReportEntry) : collectedErrors (entries.map error) = entries := by
  induction entries with
  | nil => rfl
  | cons entry entries ih =>
    show entry :: collectedErrors (entries.map error) = _
    rw [ih]

theorem collectedErrors_eq_nil (events : List LogEvent) (quiet : ∀ e ∈ events, e.asError? = none) :
    collectedErrors events = [] := by
  rw [collectedErrors, List.filterMap_eq_nil_iff]
  exact fun e he => quiet e (List.mem_of_mem_filter he)

theorem collectedErrors_ofFailure (e : Failure) : collectedErrors (ofFailure e) = e.report := by
  cases e with
  | fault f => exact collectedErrors_error f.entries
  | crash => rfl

end LogEvent

open LogEvent

theorem Outcome.collectedErrors_reported {α : Type} (o : Outcome α) (quiet : collectedErrors o.events = []) :
    collectedErrors o.reported.events = reportOf o.result := by
  rw [Outcome.reported]
  cases ended : o.result with
  | ok a => exact quiet
  | error e =>
    dsimp only
    rw [collectedErrors_append, quiet, List.nil_append]
    exact collectedErrors_ofFailure e

namespace Request

/-- The request is one for a protocol. A file that is only loaded is not reported on. -/
def isReported : Request → Bool
  | instantiate .. | compile .. => true
  | load _ | free => false

end Request

namespace Host

variable (h : Host) (tree : FileTree)

def events : Request → List LogEvent
  | .load file => (h.load tree file).events
  | .instantiate file text => (h.instantiate tree file text).events
  | .compile file text => (h.compile tree file text).events
  | .free => []

theorem fetch_quiet (file text : Text) : collectedErrors (h.fetch tree file text).events = [] := by
  rw [fetch]
  cases (h.load tree file).result with
  | error e => rfl
  | ok f =>
    dsimp only
    split
    · rfl
    · exact collectedErrors_eq_nil _ (by simp [asError?])

theorem instantiate_errors (file text : Text) :
    collectedErrors (h.instantiate tree file text).events = reportOf (h.instantiate tree file text).result := by
  rw [instantiate, reported_result]
  exact Outcome.collectedErrors_reported _ (h.fetch_quiet tree file text)

theorem compileInstance_quiet (p : Protocol) : collectedErrors (h.compileInstance p).events = [] := by
  rw [compileInstance]
  cases (h.compiler.compileProtocol p).result with
  | error e => rfl
  | ok c => exact collectedErrors_eq_nil _ (by simp [asError?])

theorem compile_errors (file text : Text) :
    collectedErrors (h.compile tree file text).events = reportOf (h.compile tree file text).result := by
  have told := h.instantiate_errors tree file text
  rw [compile]
  cases ended : (h.instantiate tree file text).result with
  | error e =>
    rw [ended] at told
    exact told
  | ok p =>
    rw [ended] at told
    replace told : collectedErrors (h.instantiate tree file text).events = [] := told
    dsimp only
    rw [collectedErrors_append, told, List.nil_append, reported_result]
    exact Outcome.collectedErrors_reported _ (compileInstance_quiet _ p)

theorem events_errors (r : Request) :
    collectedErrors (h.events tree r) = if r.isReported then reportOf (h.respond tree r).1 else [] := by
  cases r with
  | load file => rfl
  | instantiate file text =>
    rw [events, respond, reportOf_map]
    exact h.instantiate_errors tree file text
  | compile file text =>
    rw [events, respond, reportOf_map]
    exact h.compile_errors tree file text
  | free => rfl

def log (h : Host) : List (FileTree × Request) → List LogEvent
  | [] => []
  | (tree, r) :: steps => h.events tree r ++ (h.respond tree r).2.log steps

def answers (h : Host) : List (FileTree × Request) → List (Request × Except Failure Response)
  | [] => []
  | (tree, r) :: steps => (r, (h.respond tree r).1) :: (h.respond tree r).2.answers steps

/-- The errors collected over a run are those of the requests for protocols that ended in a fault, in the order of the
requests. A request that succeeds adds nothing, whatever happens to the files in the meantime. -/
theorem log_errors (steps : List (FileTree × Request)) :
    collectedErrors (h.log steps) =
      ((h.answers steps).filter (·.1.isReported)).flatMap fun answer => reportOf answer.2 := by
  induction steps generalizing h with
  | nil => rfl
  | cons step steps ih =>
    obtain ⟨tree, r⟩ := step
    rw [log, answers, collectedErrors_append, events_errors, ih]
    cases reported : r.isReported with
    | true => simp [reported]
    | false => simp [reported]

end Host
end DeviceProtocol
