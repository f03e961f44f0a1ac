import ProxyTun.Core.Types
import ProxyTun.Library.RingBuffer
import ProxyTun.Library.Simulation

/-!
# The log queue of the macOS extension

Two writers put entries into a circular buffer, and the `getLogs` message takes them out in
batches. All three hold the lock of the queue, so their calls come in some order.
-/
namespace ProxyTun.MacOS
open Library Library.Simulation

abbrev LogEntry := List (CStr × CStr)

def logCapacity : ℕ := 1000

def logEntry (timestamp level message : CStr) : LogEntry :=
  [("timestamp".toList, timestamp), ("level".toList, level), ("message".toList, message)]

def connectionEntry (protocol process destination port proxy : CStr) : LogEntry :=
  [("type".toList, "connection".toList), ("protocol".toList, protocol),
    ("process".toList, process), ("destination".toList, destination), ("port".toList, port),
    ("proxy".toList, proxy)]

abbrev LogBuffer := RingBuffer LogEntry

namespace LogBuffer

def initial : LogBuffer := .empty []

def log (timestamp level message : CStr) (s : LogBuffer) : Option LogBuffer :=
  s.push logCapacity (logEntry timestamp level message)

def sendLogToApp (trafficLoggingEnabled : Bool) (protocol process destination port proxy : CStr)
    (s : LogBuffer) : Option LogBuffer :=
  if trafficLoggingEnabled then
    s.push logCapacity (connectionEntry protocol process destination port proxy)
  else some s

/-- The `getLogs` message, whose reply is `nil` when there are no entries. -/
def getLogs (s : LogBuffer) : Option (Option (List LogEntry) × LogBuffer) :=
  if 0 < s.count then
    (s.drain logCapacity (min 100 s.count)).map fun batch => (some batch.1, batch.2)
  else some (none, s)

end LogBuffer

inductive LogCall where
  | log (timestamp level message : CStr)
  /-- With what the call reads of the switch for traffic logging. -/
  | sendLogToApp (trafficLoggingEnabled : Bool) (protocol process destination port proxy : CStr)
  | getLogs
  deriving DecidableEq, Repr

/-- The entry that a call writes. -/
def LogCall.entry : LogCall → Option LogEntry
  | .log timestamp level message => some (logEntry timestamp level message)
  | .sendLogToApp true protocol process destination port proxy =>
    some (connectionEntry protocol process destination port proxy)
  | .sendLogToApp false _ _ _ _ _ | .getLogs => none

def LogBuffer.step (s : LogBuffer) : LogCall → Option (Option (List LogEntry) × LogBuffer)
  | .log timestamp level message => (s.log timestamp level message).map fun t => (none, t)
  | .sendLogToApp enabled protocol process destination port proxy =>
    (s.sendLogToApp enabled protocol process destination port proxy).map fun t => (none, t)
  | .getLogs => s.getLogs

/-- What the buffer is for: a queue that gives its oldest entries, up to 100 of them, to a
reader. -/
def queueStep (queue : List LogEntry) (call : LogCall) :
    Option (Option (List LogEntry) × List LogEntry) :=
  match call with
  | .getLogs =>
    some (if queue = [] then none else some (queue.take (min 100 queue.length)),
      queue.drop (min 100 queue.length))
  | writer =>
    match writer.entry with
    | some entry => some (none, pushBounded logCapacity entry queue)
    | none => some (none, queue)

/-- All entries in a list of replies. -/
def returned (replies : List (Option (List LogEntry))) : List LogEntry :=
  (replies.filterMap id).flatten

theorem queueStep_total (queue : List LogEntry) (call : LogCall) :
    ∃ reply queue', queueStep queue call = some (reply, queue') := by
  cases call with
  | log timestamp level message => exact ⟨_, _, rfl⟩
  | sendLogToApp enabled protocol process destination port proxy =>
    cases enabled <;> exact ⟨_, _, rfl⟩
  | getLogs => exact ⟨_, _, rfl⟩

section
variable {s : LogBuffer} {queue queue' : List LogEntry} {reply : Option (List LogEntry)}

theorem push_of_pushBounded (h : RingBuffer.Holds logCapacity s queue) (entry : LogEntry)
    (hqueue : some (none, pushBounded logCapacity entry queue) = some (reply, queue')) :
    ∃ s', ((s.push logCapacity entry).map fun t => (none, t)) = some (reply, s') ∧
      RingBuffer.Holds logCapacity s' queue' := by
  obtain ⟨rfl, rfl⟩ := Prod.mk.inj (Option.some.inj hqueue)
  obtain ⟨s', hpush, hholds⟩ := h.push entry
  exact ⟨s', by rw [hpush, Option.map_some], hholds⟩

theorem step_of_queueStep {call : LogCall} (h : RingBuffer.Holds logCapacity s queue)
    (hqueue : queueStep queue call = some (reply, queue')) :
    ∃ s', s.step call = some (reply, s') ∧ RingBuffer.Holds logCapacity s' queue' := by
  cases call with
  | log timestamp level message =>
    exact push_of_pushBounded h (logEntry timestamp level message) hqueue
  | sendLogToApp enabled protocol process destination port proxy =>
    cases enabled with
    | true =>
      exact push_of_pushBounded h (connectionEntry protocol process destination port proxy) hqueue
    | false =>
      obtain ⟨rfl, rfl⟩ := Prod.mk.inj (Option.some.inj hqueue)
      exact ⟨s, rfl, h⟩
  | getLogs =>
    obtain ⟨rfl, rfl⟩ := Prod.mk.inj (Option.some.inj hqueue)
    have hcount := h.length_eq
    change ∃ s', s.getLogs = _ ∧ _
    unfold LogBuffer.getLogs
    cases queue with
    | nil =>
      rw [List.length_nil] at hcount
      rw [if_neg (by omega)]
      exact ⟨s, rfl, h⟩
    | cons entry rest =>
      rw [List.length_cons] at hcount
      obtain ⟨s', hdrain, hrest⟩ := h.drain (min_le_right 100 (entry :: rest).length)
      rw [if_pos (by omega), ← hcount, ← List.length_cons, hdrain]
      exact ⟨s', rfl, hrest⟩

theorem pushBounded_sublist (n : ℕ) (entry : LogEntry) (queue : List LogEntry) :
    (pushBounded n entry queue).Sublist (queue ++ [entry]) := by
  unfold pushBounded
  apply List.Sublist.append_right
  split_ifs
  · exact List.Sublist.refl queue
  · exact List.drop_sublist 1 queue

/-- One call neither doubles an entry nor puts two in another order. -/
theorem queueStep_sublist {call : LogCall} (h : queueStep queue call = some (reply, queue')) :
    (returned [reply] ++ queue').Sublist (queue ++ call.entry.toList) := by
  cases call with
  | log timestamp level message =>
    obtain ⟨rfl, rfl⟩ := Prod.mk.inj (Option.some.inj h)
    exact pushBounded_sublist logCapacity _ queue
  | sendLogToApp enabled protocol process destination port proxy =>
    cases enabled with
    | true =>
      obtain ⟨rfl, rfl⟩ := Prod.mk.inj (Option.some.inj h)
      exact pushBounded_sublist logCapacity _ queue
    | false =>
      obtain ⟨rfl, rfl⟩ := Prod.mk.inj (Option.some.inj h)
      exact List.sublist_append_left queue []
  | getLogs =>
    have hbatch : returned [reply] ++ queue' = queue := by
      obtain ⟨rfl, rfl⟩ := Prod.mk.inj (Option.some.inj h)
      cases queue with
      | nil => rfl
      | cons entry rest => simp [returned]
    rw [hbatch]
    exact List.sublist_append_left queue []

theorem returned_cons (reply : Option (List LogEntry)) (rest : List (Option (List LogEntry))) :
    returned (reply :: rest) = returned [reply] ++ returned rest := by
  cases reply <;> simp [returned]

theorem returned_sublist {calls : List LogCall} {replies : List (Option (List LogEntry))}
    (h : answers queueStep queue calls = some (replies, queue')) :
    (returned replies ++ queue').Sublist (queue ++ calls.filterMap LogCall.entry) := by
  induction calls generalizing queue replies with
  | nil =>
    obtain ⟨rfl, rfl⟩ := Prod.mk.inj (Option.some.inj h)
    exact List.sublist_append_left queue []
  | cons call calls ih =>
    obtain ⟨reply, between, rest, hstep, hrest, rfl⟩ := answers_cons_eq_some h
    have hwritten : (call :: calls).filterMap LogCall.entry =
        call.entry.toList ++ calls.filterMap LogCall.entry := by
      cases hentry : call.entry <;> simp [hentry]
    have htail : (returned [reply] ++ (returned rest ++ queue')).Sublist
        (returned [reply] ++ (between ++ calls.filterMap LogCall.entry)) := (ih hrest).append_left _
    have hhead : (returned [reply] ++ between ++ calls.filterMap LogCall.entry).Sublist
        (queue ++ call.entry.toList ++ calls.filterMap LogCall.entry) :=
      (queueStep_sublist hstep).append_right _
    rw [hwritten, returned_cons, List.append_assoc, ← List.append_assoc queue]
    rw [List.append_assoc] at hhead
    exact htail.trans hhead

end

/-- For every sequence of calls the buffer never stops the program and gives the replies of the
queue, the positions and the number of entries fit together, and what was returned and what is
still there are entries that were written, each once and in the order of their writing. -/
theorem logQueue_fifo (calls : List LogCall) :
    ∃ replies s queue, answers LogBuffer.step .initial calls = some (replies, s) ∧
      answers queueStep [] calls = some (replies, queue) ∧
      s.count = queue.length ∧
      (∀ i (h : i < queue.length), s.cells ((s.head + i) % 1000) = queue[i]) ∧
      s.tail = (s.head + s.count) % 1000 ∧ s.count ≤ 1000 ∧
      (returned replies ++ queue).Sublist (calls.filterMap LogCall.entry) := by
  obtain ⟨replies, queue, hqueue⟩ := answers_of_total queueStep_total [] calls
  have hinitial : RingBuffer.Holds logCapacity LogBuffer.initial [] :=
    RingBuffer.holds_empty (by decide) []
  have hsim : ∀ queue s call reply queue', RingBuffer.Holds logCapacity s queue →
      queueStep queue call = some (reply, queue') →
        ∃ s', LogBuffer.step s call = some (reply, s') ∧
          RingBuffer.Holds logCapacity s' queue' := by
    intro queue s call reply queue' h hstep
    exact step_of_queueStep h hstep
  obtain ⟨s, hanswers, hholds⟩ := answers_of_simulation
    (R := fun queue s => RingBuffer.Holds logCapacity s queue) hsim hinitial hqueue
  exact ⟨replies, s, queue, hanswers, hqueue, hholds.length_eq.symm, hholds.cells_eq,
    hholds.tail_eq, hholds.count_le, returned_sublist hqueue⟩

end ProxyTun.MacOS
