import MevDesign.MempoolMonitor.Abi

/-!
# `MevDesign.MempoolMonitor.Main`: the decoding of a transaction's trace logs

For each pending transaction, `main` (`bins/mempool-monitor/src/main.rs:33-142`) asks
the node for a `callTracer` trace with logs, gathers the logs of every call with
`collect_logs` (lines 22-31), and decodes those whose first topic is the signature
hash of an event it knows. The results of the decoders are only logged.

The model is the loop over one trace (lines 87-135): `decodeTrace` lists, in order,
the event and the `alloy_primitives::Log` of each decode the loop runs, and is `none`
where the loop panics. The subscription, the transaction lookup and the trace request
are I/O whose failures the loop steps over (`if let Ok`), so they are left out.
-/

set_option autoImplicit false

namespace MevDesign.MempoolMonitor

/-- `CallLogFrame`: a log as the call tracer reports it, each field optional. -/
structure CallLogFrame where
  address : Option Address
  topics : Option (List B256)
  data : Option Bytes
  deriving DecidableEq, Repr

/-- `CallFrame`: a call of the trace, with its own logs and its sub-calls. The call's
other fields (its addresses, input, output, gas and errors) are left out. -/
inductive CallFrame where
  | mk (logs : List CallLogFrame) (calls : List CallFrame)

/-- The logs a call emitted itself. -/
def CallFrame.logs : CallFrame → List CallLogFrame
  | .mk logs _ => logs

mutual

/-- `collect_logs`: the frame's own logs, then those of each of its calls, in order. -/
def collectLogs : CallFrame → List CallLogFrame
  | .mk logs calls => logs ++ collectLogsOfCalls calls

/-- `f.calls.iter().flat_map(collect_logs)`. -/
def collectLogsOfCalls : List CallFrame → List CallLogFrame
  | [] => []
  | frame :: calls => collectLogs frame ++ collectLogsOfCalls calls

end

/-- The events whose logs `main` decodes. -/
inductive TraceEvent where
  | transfer
  | crocSwap
  | v2Swap
  | v3Swap
  deriving DecidableEq, Repr

/-- The arm of `match topic` that a first topic takes: the event it decodes, or `none`
for the `_ => {}` arm. -/
def TraceEvent.ofTopic (abi : Abi) (topic : B256) : Option TraceEvent :=
  if topic = abi.transferHash then some .transfer
  else if topic = abi.crocSwapHash then some .crocSwap
  else if topic = abi.v2SwapHash then some .v2Swap
  else if topic = abi.v3SwapHash then some .v3Swap
  else none

/-- The loop body on one log: `some none` for a log without topics (`if let
Some(topics)`) and for an unknown first topic, `some (some (event, log))` for a decode,
`none` for a panic. It panics at `topics[0]` on an empty topic list, at
`log.address.unwrap()`, at `log.data.clone().unwrap()`, and at
`LogData::new(..).unwrap()` on more than four topics. -/
def decodeLog (abi : Abi) (log : CallLogFrame) :
    Option (Option (TraceEvent × Primitives.Log)) :=
  match log.topics with
  | none => some none
  | some topics => do
    let topic ← topics.head?
    let address ← log.address
    let data ← LogData.new topics (← log.data)
    pure <| (TraceEvent.ofTopic abi topic).map fun event => (event, ⟨address, data⟩)

/-- The loop `for log in logs.iter()` over `collect_logs(&frame)`: the decodes it runs,
in order, or `none` where it panics. -/
def decodeTrace (abi : Abi) (frame : CallFrame) : Option (List (TraceEvent × Primitives.Log)) :=
  ((collectLogs frame).mapM (decodeLog abi)).map (List.filterMap id)

end MevDesign.MempoolMonitor
