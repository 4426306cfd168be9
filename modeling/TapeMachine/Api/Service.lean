import TapeMachine.Api.Route
import TapeMachine.Api.Validation
import TapeMachine.Evaluate

/-!
# The HTTP service

`answer` carries out a valid call on the registry of stored programs. `Reading.handle` answers any
request: it reads which call the request makes, and carries the call out unless the request is
refused. How requests are read is a parameter of it. The `service` finds the endpoint of a request,
checks its method and then its body.
-/

namespace TapeMachine.Api

/-- An answer, the log entries written for it, and the registry afterwards. -/
structure Answer where
  reply : Reply
  entries : List LogEntry
  registry : Registry

/-- Run a program on a blank tape, with its input from a buffer. -/
def runProgram (program : Program) (options : RunOptions) : Reply × List LogEntry :=
  let machine :=
    Machine.start (Tape.blank options.tapeSize options.tapeSize_pos)
      (Console.ofInput options.input)
  let (outcome, machine) := machine.executeWithin 0 program.code (some options.stepLimit)
  match outcome with
  | .finished =>
      (.ran ⟨machine.store.device.delivered.toList, machine.steps, machine.store.pointer,
          program.size⟩,
        LogEntry.ofExecute (outcome, machine))
  | .limitReached limit => (.limitReached limit, [.aborted machine.steps limit])
  | .faulted (.device fault) =>
      if fault.isTransfer then
        (.transferFailed fault, [.failed machine.index fault.message])
      else
        (.crashed, [])
  | .faulted _ | .unfinished => (.crashed, [])

/-- Carry out a valid call. -/
def answer (call : Call) (registry : Registry) : Answer :=
  match call with
  | .parse code =>
      let source := Source.ofText code
      match compile source with
      | .error fault => ⟨.rejected fault, [.rejected fault], registry⟩
      | .ok program =>
          ⟨.parsed (.ofProgram program), [.compiled source.length program.size], registry⟩
  | .run code options =>
      let source := Source.ofText code
      match compile source with
      | .error fault => ⟨.rejected fault, [.rejected fault], registry⟩
      | .ok program =>
          let (reply, entries) := runProgram program options
          ⟨reply, .compiled source.length program.size :: entries, registry⟩
  | .create code =>
      match registry.register code with
      | .error fault => ⟨.rejected fault, [.rejected fault], registry⟩
      | .ok ⟨record, evicted, registry⟩ =>
          ⟨.created record.id (.ofProgram record.program),
            Registry.registrationEntries code record evicted, registry⟩
  | .fetch id =>
      match registry.find? id with
      | none => ⟨.unknownProgram id, [], registry⟩
      | some record => ⟨.found record.id (.ofProgram record.program), [], registry⟩
  | .delete id =>
      match registry.find? id with
      | none => ⟨.nothingToDelete id, [], registry⟩
      | some _ => ⟨.deleted, [], registry.erase id⟩
  | .runStored id options =>
      match registry.find? id with
      | none => ⟨.unknownProgram id, [], registry⟩
      | some record =>
          let (reply, entries) := runProgram record.program options
          ⟨reply, entries, registry⟩

/-- A request: its method, its path after decoding, and the bytes of its body. -/
structure Request where
  method : String
  path : String
  body : List UInt8

/-- What a check finds in the members of the body, or the answer to a body that fails it. -/
def Request.validate {α : Type} (request : Request)
    (check : Members → Except (List Finding) α) : Except Reply α :=
  match readMembers request.body with
  | .error reply => .error reply
  | .ok members =>
      match check members with
      | .error findings => .error (.ofFindings findings)
      | .ok value => .ok value

/-- The answer to a body that fails its check refuses the request. -/
theorem isRefusal_of_validate {α : Type} {request : Request}
    {check : Members → Except (List Finding) α} {toCall : α → Call} {reply : Reply}
    (h : (request.validate check).map toCall = .error reply) : reply.IsRefusal := by
  unfold Request.validate at h
  split at h
  · rename_i hmembers
    cases h
    exact isRefusal_of_readMembers hmembers
  · split at h <;> cases h
    exact isRefusal_ofFindings _

/-- The call that a request makes, or the answer to a request that makes none. -/
def Request.call? (request : Request) : Except Reply Call :=
  match Endpoint.ofPath? request.path, request.method with
  | some .parse, "POST" => (request.validate checkCode).map .parse
  | some .run, "POST" => (request.validate checkRun).map fun (code, options) ↦ .run code options
  | some .programs, "POST" => (request.validate checkCode).map .create
  | some (.program id), "GET" => .ok (.fetch id)
  | some (.program id), "DELETE" => .ok (.delete id)
  | some (.programRun id), "POST" => (request.validate checkOptions).map (.runStored id)
  | some _, _ => .error .notAllowed
  | none, _ => .error (if isRedirected request.path then .redirected else .notFound)

/-- A request that makes no call is refused. -/
theorem isRefusal_of_call? {request : Request} {reply : Reply}
    (h : request.call? = .error reply) : reply.IsRefusal := by
  unfold Request.call? at h
  split at h
  case h_4 | h_5 => cases h
  case h_7 =>
    cases h
    constructor
  case h_8 =>
    cases h
    split <;> constructor
  all_goals exact isRefusal_of_validate h

/-- A way to read requests: the call that a request makes, or the refusal of a request that makes
none. -/
structure Reading where
  read : Request → Except Reply Call
  isRefusal : ∀ {request reply}, read request = .error reply → reply.IsRefusal

/-- Answer a request. -/
def Reading.handle (reading : Reading) (request : Request) (registry : Registry) : Answer :=
  match reading.read request with
  | .error reply => ⟨reply, [], registry⟩
  | .ok call => answer call registry

/-- The service reads a request by its path, its method and its body. -/
def service : Reading :=
  ⟨Request.call?, isRefusal_of_call?⟩

end TapeMachine.Api
