import MevDesign.MempoolMonitor.Main

/-!
# `MevDesign.Proofs.MempoolMonitor.Trace`: where the trace loop panics

`collect_logs` reaches every call of the trace: a log is collected exactly when some
call at some depth emitted it (`mem_collectLogs`, with `CallFrame.Within` for "is the
frame or a call below it"). The loop body panics on a log exactly when the log has
topics and either the first is missing, or the address or the data is missing, or
there are more than four topics (`Panics`, `decodeLog_eq_none_iff`). So the loop over
a trace panics exactly when some call at some depth emitted such a log
(`decodeTrace_eq_none_iff`).

A call tracer reports a log from every `LOG0` to `LOG4`, with its address, its data
and its topics, and a `LOG0` log has none. `topics[0]` panics on it, wherever it sits
in the trace (`log0_in_trace_panics`).
-/

set_option autoImplicit false

namespace MevDesign.MempoolMonitor

/-- `f.Within frame`: `f` is `frame` or a call at some depth below it. -/
inductive CallFrame.Within : CallFrame → CallFrame → Prop
  | refl (frame : CallFrame) : Within frame frame
  | call {f g : CallFrame} {logs : List CallLogFrame} {calls : List CallFrame} :
      g ∈ calls → Within f g → Within f (.mk logs calls)

mutual

/-- `collect_logs` gathers the logs of the frame and of every call below it. -/
theorem mem_collectLogs {log : CallLogFrame} :
    ∀ frame : CallFrame,
      log ∈ collectLogs frame ↔ ∃ f : CallFrame, f.Within frame ∧ log ∈ f.logs
  | .mk logs calls => by
    rw [collectLogs, List.mem_append, mem_collectLogsOfCalls calls]
    constructor
    · rintro (h | ⟨g, hg, f, hf, hl⟩)
      · exact ⟨_, .refl _, h⟩
      · exact ⟨f, .call hg hf, hl⟩
    · rintro ⟨f, hf, hl⟩
      cases hf with
      | refl => exact .inl hl
      | call hg hf => exact .inr ⟨_, hg, _, hf, hl⟩

theorem mem_collectLogsOfCalls {log : CallLogFrame} :
    ∀ calls : List CallFrame,
      log ∈ collectLogsOfCalls calls ↔
        ∃ g ∈ calls, ∃ f : CallFrame, f.Within g ∧ log ∈ f.logs
  | [] => by simp [collectLogsOfCalls]
  | g :: calls => by
    rw [collectLogsOfCalls, List.mem_append, mem_collectLogs g, mem_collectLogsOfCalls calls]
    simp

end

/-- The loop body panics on `log`: it has topics, and `topics[0]` finds none, or
`address` or `data` is missing, or `LogData::new` refuses more than four topics. -/
def Panics (log : CallLogFrame) : Prop :=
  ∃ topics, log.topics = some topics ∧
    (topics = [] ∨ log.address = none ∨ log.data = none ∨ 4 < topics.length)

theorem decodeLog_eq_none_iff {abi : Abi} {log : CallLogFrame} :
    decodeLog abi log = none ↔ Panics log := by
  rcases log with ⟨address, _ | topics, data⟩
  · simp [decodeLog, Panics]
  · cases topics <;> cases address <;> cases data <;> simp [decodeLog, Panics, LogData.new]
    omega

/-- A loop over a list in `Option` panics exactly where its body panics on some
element. -/
theorem mapM_eq_none_iff {α β : Type} {f : α → Option β} :
    ∀ l : List α, l.mapM f = none ↔ ∃ x ∈ l, f x = none
  | [] => ⟨(nomatch ·), fun ⟨_, h, _⟩ => nomatch h⟩
  | x :: l => by
    have ih := mapM_eq_none_iff (f := f) l
    rw [List.mapM_cons]
    cases hx : f x <;> cases hl : l.mapM f <;> simp_all

theorem decodeTrace_eq_none_iff_mem {abi : Abi} {frame : CallFrame} :
    decodeTrace abi frame = none ↔ ∃ log ∈ collectLogs frame, Panics log := by
  simp only [decodeTrace, Option.map_eq_none', mapM_eq_none_iff, decodeLog_eq_none_iff]

/-- The loop over a trace panics exactly where some call, at some depth, emitted a log
the loop body panics on. -/
theorem decodeTrace_eq_none_iff (abi : Abi) (frame : CallFrame) :
    decodeTrace abi frame = none ↔
      ∃ f : CallFrame, f.Within frame ∧ ∃ log ∈ f.logs, Panics log := by
  rw [decodeTrace_eq_none_iff_mem]
  simp only [mem_collectLogs]
  exact ⟨fun ⟨log, ⟨f, hf, hlog⟩, hp⟩ => ⟨f, hf, log, hlog, hp⟩,
    fun ⟨f, hf, log, hlog, hp⟩ => ⟨log, ⟨f, hf, hlog⟩, hp⟩⟩

/-- A trace without a `LOG0` log is decoded: here the `Transfer` log of its top call. -/
example : decodeTrace ⟨1, 2, 3, 4, 5, 6, fun _ => .error "", fun _ => .error ""⟩
    (.mk [⟨some 2, some [3], some []⟩] []) = some [(.transfer, ⟨2, ⟨[3], []⟩⟩)] := rfl

/-- A `LOG0` log, emitted by any call at any depth of the trace, makes the loop panic
at `topics[0]`, whatever the log's address and data and whatever the other logs. -/
theorem log0_in_trace_panics (abi : Abi) {frame f : CallFrame} (hf : f.Within frame)
    {log : CallLogFrame} (hlog : log ∈ f.logs) (h0 : log.topics = some []) :
    decodeTrace abi frame = none :=
  decodeTrace_eq_none_iff_mem.2
    ⟨log, (mem_collectLogs frame).2 ⟨f, hf, hlog⟩, [], h0, .inl rfl⟩

/-- A `LOG0` log with an address and empty data. -/
def log0 : CallLogFrame := ⟨some 1, some [], some []⟩

/-- A call that emits only `log0`. -/
def log0Call : CallFrame := .mk [log0] []

/-- A trace whose top call emits a log with one topic, then calls `log0Call`. -/
def log0Trace : CallFrame := .mk [⟨some 2, some [3], some []⟩] [log0Call]

/-- The loop decodes the top call's log, then panics on the `LOG0` log of the
sub-call. -/
theorem log0_in_subcall_panics :
    log0Call.Within log0Trace ∧ log0 ∈ log0Call.logs ∧ log0.topics = some [] ∧
      decodeTrace ⟨1, 2, 3, 4, 5, 6, fun _ => .error "", fun _ => .error ""⟩ log0Trace = none :=
  have hf : log0Call.Within log0Trace := .call (List.mem_singleton_self _) (.refl _)
  ⟨hf, List.mem_singleton_self _, rfl,
    log0_in_trace_panics _ hf (List.mem_singleton_self _) rfl⟩

end MevDesign.MempoolMonitor
