import Mathlib.Data.List.Nodup
import ProxyTun.Packets.Engine
import ProxyTun.Packets.LoggedConnections
import ProxyTun.Windows.PacketProcessor

/-!
# The connection events of the packet threads

A packet thread looks for its connection in the list of logged ones, reports it and puts it into
the list, in steps of their own. The history keeps, beside the engine, how far each thread is with
that, and every report together with the connection that was looked for.
-/
namespace ProxyTun.Windows.ConnectionEvents
open Library Library.Transition Routine

/-- How far a thread is with a connection. -/
inductive Stage where
  | idle
  /-- The connection was not in the list and is to be reported. -/
  | missing (entry : LoggedConnection)
  /-- The connection was reported and is to be put into the list. -/
  | reported (entry : LoggedConnection)
  deriving DecidableEq, Repr

/-- The connection that a thread is to put into the list. -/
def Stage.entry : Stage → Option LoggedConnection
  | .idle => none
  | .missing entry => some entry
  | .reported entry => some entry

variable (cfg : Settings)

/-- The event tells of the connection. -/
def tells (event : ConnectionEvent) (entry : LoggedConnection) : Bool :=
  event.pid = entry.pid && event.destIp = formatIpAddress entry.destIp &&
    event.destPort = entry.destPort &&
    (event.proxyInfo = proxyInfo cfg true entry.action ||
      event.proxyInfo = proxyInfo cfg false entry.action)

def logs : Op Output → Bool
  | .isConnectionAlreadyLogged _ | .connectionCallback _ | .trimLoggedConnections
  | .insertLoggedConnection _ | .addLoggedConnection _ => true
  | _ => false

/-- The stage after an operation and its result, where the operation is in its place. -/
def Stage.after : Stage → (op : Op Output) → op.Result → Option Stage
  | .idle, .isConnectionAlreadyLogged entry, found => some (if found then .idle else .missing entry)
  | .idle, op, _ => if logs op then none else some .idle
  | .missing entry, .connectionCallback event, _ =>
    if tells cfg event entry then some (.reported entry) else none
  | .reported entry, .trimLoggedConnections, _ => some (.reported entry)
  | .reported entry, .insertLoggedConnection inserted, _ =>
    if inserted = entry then some .idle else none
  | _, _, _ => none

/-- The code takes the operations of logging in their places, from a stage on. -/
abbrev Logs {α : Type} (stage : Stage) (c : Work α) : Prop :=
  c.Follows (Stage.after cfg) (fun stage => stage = .idle) stage

variable {cfg}

theorem after_of_not_logs {op : Op Output} (h : logs op = false) (r : op.Result) :
    Stage.idle.after cfg op r = some .idle := by
  cases op <;> first | rfl | cases h

theorem logs_of_all {α : Type} {c : Work α} (hc : c.All fun op => logs op = false) :
    Logs cfg .idle c := by
  refine Code.All.follows ?_ ?_ hc
  · intro op r h
    exact after_of_not_logs h r
  · rfl

theorem Logs.bind {α : Type} {stage : Stage} {c : Work α} {f : α → Work Unit}
    (hc : Logs cfg stage c) (hf : ∀ a, Logs cfg .idle (f a)) : Logs cfg stage (c >>= f) := by
  refine Code.Follows.bind hc ?_
  rintro a _ rfl
  exact hf a

/-- With traffic logging on, a connection that is reported is put into the list afterwards. -/
theorem logConnection_logs (htraffic : cfg.trafficLogging = true) (pid : Pid) (p : Packet)
    (action : RuleAction) : Logs cfg .idle (logConnection cfg pid p action) := by
  intro name
  refine ⟨.idle, rfl, ?_⟩
  cases name with
  | none => exact rfl
  | some name =>
    intro found
    cases found with
    | true => exact ⟨.idle, rfl, rfl⟩
    | false =>
      refine ⟨.missing ⟨pid, p.dstAddr, p.dstPort, action⟩, rfl, fun _ => ?_⟩
      have htells : tells cfg ⟨extractFilename name, pid, formatIpAddress p.dstAddr, p.dstPort,
          proxyInfo cfg p.transport.isUdp action⟩ ⟨pid, p.dstAddr, p.dstPort, action⟩ = true := by
        cases p.transport.isUdp <;> simp [tells]
      refine ⟨.reported ⟨pid, p.dstAddr, p.dstPort, action⟩, if_pos htells, ?_⟩
      rw [htraffic]
      exact fun _ => ⟨_, rfl, fun _ => ⟨.idle, if_pos rfl, rfl⟩⟩

theorem decideAction_all (p : Packet) :
    (decideAction cfg p).All fun op => logs op = false := by
  refine actionFor_all filters (isExempt cfg) cfg p (fun _ => rfl) ?_
  refine .bind ⟨rfl, fun _ => trivial⟩ fun pid => ?_
  split_ifs
  · exact ⟨rfl, fun _ => trivial⟩
  · trivial

theorem processUntracked_logs (htraffic : cfg.trafficLogging = true) (redirect : Packet → Packet)
    (p : Packet) : Logs cfg .idle (processUntracked cfg redirect p) := by
  unfold processUntracked
  split_ifs
  · exact logs_of_all ⟨rfl, fun _ => trivial⟩
  · refine .bind (logs_of_all (decideAction_all p)) fun decided => .bind ?_ fun _ => ?_
    · unfold onlyIf
      split_ifs
      · exact logConnection_logs htraffic _ p _
      · rfl
    · apply logs_of_all
      cases decided.1 with
      | block => trivial
      | direct => exact ⟨rfl, fun _ => trivial⟩
      | proxy => exact ⟨rfl, fun _ => ⟨rfl, fun _ => trivial⟩⟩

theorem packetProcessor_logs (htraffic : cfg.trafficLogging = true) (f : Frame) :
    Logs cfg .idle (packetProcessor cfg f) := by
  cases f with
  | ipv6 => exact logs_of_all ⟨rfl, fun _ => trivial⟩
  | neither => exact logs_of_all trivial
  | ipv4 p =>
    simp only [packetProcessor]
    split_ifs
    · cases p.transport with
      | udp =>
        simp only [processOutboundUdp]
        split_ifs
        · exact logs_of_all ⟨rfl, fun _ => ⟨rfl, fun _ => trivial⟩⟩
        · refine .bind (logs_of_all ⟨rfl, fun _ => trivial⟩) fun tracked => ?_
          cases tracked with
          | true => exact logs_of_all ⟨rfl, fun _ => trivial⟩
          | false => exact processUntracked_logs htraffic redirectUdp p
      | tcp flags =>
        simp only [processOutboundTcp]
        split_ifs
        · refine .bind (logs_of_all ⟨rfl, fun _ => trivial⟩) fun found => .bind ?_ fun _ => ?_
          · exact logs_of_all (all_onlyIf _ fun _ => ⟨rfl, fun _ => trivial⟩)
          · exact logs_of_all ⟨rfl, fun _ => trivial⟩
        · refine .bind (logs_of_all ⟨rfl, fun _ => trivial⟩) fun tracked => ?_
          cases tracked with
          | true =>
            refine .bind (logs_of_all (all_onlyIf _ fun _ => ⟨rfl, fun _ => trivial⟩)) fun _ => ?_
            exact logs_of_all ⟨rfl, fun _ => trivial⟩
          | false => exact processUntracked_logs htraffic redirectTcp p
    · exact logs_of_all ⟨rfl, fun _ => trivial⟩

/-- A report, with the connection that its thread had looked for. -/
structure Report where
  entry : LoggedConnection
  event : ConnectionEvent
  deriving DecidableEq, Repr

structure State where
  engine : Engine Frame Output
  stage : Fin 4 → Stage
  /-- The reports of connections that have not left the list since. -/
  reports : List Report

def State.initial (clock : Tick) : State := ⟨.initial clock, fun _ => .idle, []⟩

abbrev State.logged (s : State) : List LoggedConnection := s.engine.shared.logged

/-- The steps of the engine, and `clear_logged_connections` in a thread of the application. -/
inductive Label where
  | engine (l : EngineLabel Frame)
  | clear

variable (cfg)

/-- The stages after a step of the engine, which is still as it was before. -/
def stageAfter (s : State) : EngineLabel Frame → Fin 4 → Stage
  | .receive i _ => Function.update s.stage i .idle
  | .proceed i env => match s.engine.issues (.proceed i env) with
    | some (_, op) => Function.update s.stage i
        (((s.stage i).after cfg op (s.engine.shared.perform .windows env op).1).getD .idle)
    | none => s.stage
  | _ => s.stage

def reportsAfter (stage : Stage) (reports : List Report) : Op Output → List Report
  | .connectionCallback event =>
    reports ++ (stage.entry.map fun entry => ⟨entry, event⟩).toList
  | _ => reports

/-- The reports after a step of the engine, which is still as it was before. -/
def reported (s : State) : EngineLabel Frame → List Report
  | .proceed i env => match s.engine.issues (.proceed i env) with
    | some (_, op) => reportsAfter (s.stage i) s.reports op
    | none => s.reports
  | _ => s.reports

/-- The reports of the connections of which nothing left the list. -/
def keep (before after : List LoggedConnection) (reports : List Report) : List Report :=
  reports.filter fun report => before.count report.entry ≤ after.count report.entry

def step (s : State) : Label → Option State
  | .engine l => (s.engine.step .windows (packetProcessor cfg) l).map fun e =>
    ⟨e, stageAfter cfg s l, keep s.logged e.shared.logged (reported s l)⟩
  | .clear =>
    let logged := LoggedConnections.clearLoggedConnections s.logged
    some ⟨{ s.engine with shared := { s.engine.shared with logged := logged } }, s.stage,
      keep s.logged logged s.reports⟩

/-- No connection is reported twice without leaving the list in between. -/
def NoRepeat (s : State) : Prop := (s.reports.map Report.entry).Nodup

/-- No thread looks for a connection that another thread is to put into the list, and the
memory to put it there is found. -/
def undisturbed (stage : Fin 4 → Stage) (i : Fin 4) (env : Environment) : Op Output → Bool
  | .isConnectionAlreadyLogged entry => decide (∀ j, j ≠ i → (stage j).entry ≠ some entry)
  | .insertLoggedConnection _ => env.allocated
  | _ => true

/-- The step leaves the threads that report a connection undisturbed. -/
def Undisturbed (s : State) : Label → Prop
  | .engine (.proceed i env) =>
    ∀ issued ∈ s.engine.issues (.proceed i env), undisturbed s.stage i env issued.2 = true
  | _ => True

/-- The stages of the threads agree with the list and the reports: at most one thread is busy with
a connection, one that is to be reported was not, and one that was reported is in the list or will
be put there. -/
structure Settled (stage : Fin 4 → Stage) (logged : List LoggedConnection)
    (reports : List Report) : Prop where
  apart : ∀ i j entry, i ≠ j → (stage i).entry = some entry → (stage j).entry ≠ some entry
  unreported : ∀ i entry, stage i = .missing entry → entry ∉ reports.map Report.entry
  present : ∀ report ∈ reports, report.entry ∈ logged ∨ ∃ i, stage i = .reported report.entry
  nodup : (reports.map Report.entry).Nodup
  told : ∀ report ∈ reports, tells cfg report.event report.entry = true

variable {cfg} {stage : Fin 4 → Stage} {logged logged' : List LoggedConnection}
  {reports : List Report} {i : Fin 4} {entry : LoggedConnection}

theorem Settled.of_sublist (h : Settled cfg stage logged reports) {reports' : List Report}
    (hsub : reports'.Sublist reports) : Settled cfg stage logged reports' where
  apart := h.apart
  unreported i entry hi hmem := h.unreported i entry hi ((hsub.map Report.entry).subset hmem)
  present report hreport := h.present report (hsub.subset hreport)
  nodup := h.nodup.sublist (hsub.map Report.entry)
  told report hreport := h.told report (hsub.subset hreport)

theorem Settled.keep (h : Settled cfg stage logged reports) (logged' : List LoggedConnection) :
    Settled cfg stage logged' (keep logged logged' reports) := by
  have hsub : (ConnectionEvents.keep logged logged' reports).Sublist reports := List.filter_sublist
  refine { h.of_sublist hsub with present := ?_ }
  intro report hreport
  obtain ⟨hmem, hcount⟩ := List.mem_filter.mp hreport
  rw [decide_eq_true_eq] at hcount
  apply (h.present report hmem).imp_left
  intro hlogged
  have hpos := List.count_pos_iff.mpr hlogged
  exact List.count_pos_iff.mp (hpos.trans_le hcount)

/-- A thread may turn to a connection that no other thread is busy with. -/
theorem apart_update (h : Settled cfg stage logged reports) {new : Stage}
    (hnew : ∀ j entry, j ≠ i → new.entry = some entry → (stage j).entry ≠ some entry)
    (j k : Fin 4) (entry : LoggedConnection) (hjk : j ≠ k)
    (hj : (Function.update stage i new j).entry = some entry) :
    (Function.update stage i new k).entry ≠ some entry := by
  by_cases hki : k = i
  · subst hki
    rw [Function.update_of_ne hjk] at hj
    rw [Function.update_self]
    intro hk
    exact hnew j entry hjk hk hj
  · rw [Function.update_of_ne hki]
    by_cases hji : j = i
    · subst hji
      rw [Function.update_self] at hj
      exact hnew k entry hki hj
    · rw [Function.update_of_ne hji] at hj
      exact h.apart j k entry hjk hj

/-- A thread that turns away from nothing it reported leaves no report without its connection. -/
theorem present_update (h : Settled cfg stage logged reports) {new : Stage}
    (hi : ∀ entry, stage i = .reported entry → new = .reported entry) {report : Report}
    (hreport : report ∈ reports) :
    report.entry ∈ logged ∨ ∃ j, Function.update stage i new j = .reported report.entry := by
  apply (h.present report hreport).imp_right
  rintro ⟨j, hj⟩
  refine ⟨j, ?_⟩
  by_cases hji : j = i
  · subst hji
    rw [Function.update_self]
    exact hi _ hj
  · rwa [Function.update_of_ne hji]

/-- A thread looks for a connection that is not in the list and that no other thread is busy
with. -/
theorem Settled.missing (h : Settled cfg stage logged reports) (hi : stage i = .idle)
    (hothers : ∀ j, j ≠ i → (stage j).entry ≠ some entry) (hlogged : entry ∉ logged) :
    Settled cfg (Function.update stage i (.missing entry)) logged reports where
  apart := by
    apply apart_update h
    rintro j _ hj ⟨⟩
    exact hothers j hj
  unreported j other hj := by
    by_cases hji : j = i
    · subst hji
      rw [Function.update_self] at hj
      obtain rfl := Stage.missing.inj hj
      intro hmem
      obtain ⟨report, hreport, rfl⟩ := List.mem_map.mp hmem
      obtain ⟨k, hk⟩ := (h.present report hreport).resolve_left hlogged
      have hki : k ≠ j := by
        rintro rfl
        rw [hi] at hk
        cases hk
      exact hothers k hki (by rw [hk]; rfl)
    · rw [Function.update_of_ne hji] at hj
      exact h.unreported j other hj
  present report hreport := by
    refine present_update h ?_ hreport
    intro other hother
    rw [hi] at hother
    cases hother
  nodup := h.nodup
  told := h.told

theorem Settled.report (h : Settled cfg stage logged reports) (hi : stage i = .missing entry)
    {event : ConnectionEvent} (htells : tells cfg event entry = true) :
    Settled cfg (Function.update stage i (.reported entry)) logged
      (reports ++ [⟨entry, event⟩]) where
  apart := by
    apply apart_update h
    rintro j _ hj ⟨⟩
    exact h.apart i j entry hj.symm (by rw [hi]; rfl)
  unreported j other hj := by
    by_cases hji : j = i
    · subst hji
      rw [Function.update_self] at hj
      cases hj
    · rw [Function.update_of_ne hji] at hj
      have hne : other ≠ entry := by
        rintro rfl
        exact h.apart i j other (Ne.symm hji) (by rw [hi]; rfl) (by rw [hj]; rfl)
      rw [List.map_append, List.mem_append, List.map_singleton, List.mem_singleton, not_or]
      exact ⟨h.unreported j other hj, hne⟩
  present report hreport := by
    rcases List.mem_append.mp hreport with hold | hnew
    · refine present_update h ?_ hold
      intro other hother
      rw [hi] at hother
      cases hother
    · rw [List.mem_singleton.mp hnew]
      exact Or.inr ⟨i, Function.update_self ..⟩
  nodup := by
    rw [List.map_append, List.map_singleton, List.nodup_append_comm, List.singleton_append,
      List.nodup_cons]
    exact ⟨h.unreported i entry hi, h.nodup⟩
  told report hreport := by
    rcases List.mem_append.mp hreport with hold | hnew
    · exact h.told report hold
    · rw [List.mem_singleton.mp hnew]
      exact htells

theorem Settled.insert (h : Settled cfg stage logged reports) (hi : stage i = .reported entry) :
    Settled cfg (Function.update stage i .idle) (entry :: logged) reports where
  apart := by
    apply apart_update h
    rintro j _ hj ⟨⟩
  unreported j other hj := by
    by_cases hji : j = i
    · subst hji
      rw [Function.update_self] at hj
      cases hj
    · rw [Function.update_of_ne hji] at hj
      exact h.unreported j other hj
  present report hreport := by
    rcases h.present report hreport with hlogged | ⟨j, hj⟩
    · exact Or.inl (List.mem_cons_of_mem entry hlogged)
    · by_cases hji : j = i
      · subst hji
        obtain rfl := Stage.reported.inj (hi.symm.trans hj)
        exact Or.inl List.mem_cons_self
      · exact Or.inr ⟨j, by rwa [Function.update_of_ne hji]⟩
  nodup := h.nodup
  told := h.told

section Perform
variable {shared : Shared} {op : Op Output} {env : Environment} {next : Stage}

theorem Settled.perform_idle (h : Settled cfg stage shared.logged reports) (hi : stage i = .idle)
    (hnext : Stage.idle.after cfg op (shared.perform .windows env op).1 = some next)
    (hguard : undisturbed stage i env op = true) :
    Settled cfg (Function.update stage i next) (shared.perform .windows env op).2.logged
      (ConnectionEvents.keep shared.logged (shared.perform .windows env op).2.logged
        (reportsAfter .idle reports op)) := by
  have hsame : Function.update stage i .idle = stage := by rw [← hi, Function.update_eq_self]
  cases op with
  | isConnectionAlreadyLogged entry =>
    apply Settled.keep
    obtain rfl := Option.some.inj hnext
    cases hfound : shared.logged.contains entry with
    | true =>
      simp only [Shared.perform, hfound, if_true, hsame]
      exact h
    | false =>
      simp only [Shared.perform, hfound, Bool.false_eq_true, if_false]
      have hlogged : entry ∉ shared.logged := by simpa using hfound
      exact h.missing hi (of_decide_eq_true hguard) hlogged
  | connectionCallback _ | trimLoggedConnections | insertLoggedConnection _
  | addLoggedConnection _ => cases hnext
  | getConnection _ | isConnectionTracked _ | addConnection _ _ _ _ | removeConnection _
  | processId _ _ _ | processName _ | emit _ =>
    obtain rfl := Option.some.inj hnext
    rw [hsame]
    exact h.keep _

/-- A thread that has reported a connection makes room in the list and puts it there. -/
theorem Settled.perform_reported (h : Settled cfg stage shared.logged reports)
    (hi : stage i = .reported entry)
    (hnext : (Stage.reported entry).after cfg op (shared.perform .windows env op).1 = some next)
    (hguard : undisturbed stage i env op = true) :
    Settled cfg (Function.update stage i next) (shared.perform .windows env op).2.logged
      (ConnectionEvents.keep shared.logged (shared.perform .windows env op).2.logged
        (reportsAfter (.reported entry) reports op)) := by
  cases op with
  | trimLoggedConnections =>
    obtain rfl := Option.some.inj hnext
    rw [← hi, Function.update_eq_self]
    exact h.keep _
  | insertLoggedConnection inserted =>
    simp only [Stage.after] at hnext
    split_ifs at hnext with heq
    obtain rfl := Option.some.inj hnext
    subst heq
    have hallocated : env.allocated = true := hguard
    have hlogged :
        (shared.perform .windows env (.insertLoggedConnection inserted : Op Output)).2.logged =
          inserted :: shared.logged := by
      simp only [Shared.perform, Shared.insertLogged, hallocated, if_true]
    rw [hlogged]
    exact (h.insert hi).of_sublist List.filter_sublist
  | _ => cases hnext

theorem Settled.perform (h : Settled cfg stage shared.logged reports)
    (hnext : (stage i).after cfg op (shared.perform .windows env op).1 = some next)
    (hguard : undisturbed stage i env op = true) :
    Settled cfg (Function.update stage i next) (shared.perform .windows env op).2.logged
      (ConnectionEvents.keep shared.logged (shared.perform .windows env op).2.logged
        (reportsAfter (stage i) reports op)) := by
  cases hi : stage i with
  | idle =>
    rw [hi] at hnext
    exact h.perform_idle hi hnext hguard
  | missing entry =>
    rw [hi] at hnext
    cases op with
    | connectionCallback event =>
      simp only [Stage.after] at hnext
      split_ifs at hnext with htells
      obtain rfl := Option.some.inj hnext
      exact (h.report hi htells).keep _
    | _ => cases hnext
  | reported entry =>
    rw [hi] at hnext
    exact h.perform_reported hi hnext hguard

end Perform

/-- The code of every thread goes on from its stage, and the stages are settled. -/
structure Invariant (cfg : Settings) (s : State) : Prop where
  code : ∀ i, Logs cfg (s.stage i) (s.engine.threads i).code
  settled : Settled cfg s.stage s.logged s.reports

theorem invariant_initial (clock : Tick) : Invariant cfg (.initial clock) where
  code _ := rfl
  settled := by
    refine ⟨?_, ?_, ?_, List.nodup_nil, ?_⟩
    · rintro i j entry hij ⟨⟩
    · rintro i entry ⟨⟩
    · intro report hreport
      cases hreport
    · intro report hreport
      cases hreport

/-- A thread that executes its next operation goes on from the stage behind it. -/
theorem invariant_proceed {s : State} (hs : Invariant cfg s) {env : Environment}
    {e : Engine Frame Output}
    (h : s.engine.step .windows (packetProcessor cfg) (.proceed i env) = some e)
    (hguard : Undisturbed s (.engine (.proceed i env))) :
    Invariant cfg ⟨e, stageAfter cfg s (.proceed i env),
      ConnectionEvents.keep s.logged e.shared.logged (reported s (.proceed i env))⟩ := by
  obtain ⟨input, op, next, hi, hissues, rfl⟩ := Engine.step_proceed h
  have hcode := hs.code i
  rw [hi] at hcode
  obtain ⟨stage', hafter, hnext⟩ := hcode (s.engine.shared.perform .windows env op).1
  have hstage : stageAfter cfg s (.proceed i env) = Function.update s.stage i stage' := by
    simp only [stageAfter, hissues, hafter, Option.getD_some]
  have hreported : reported s (.proceed i env) = reportsAfter (s.stage i) s.reports op := by
    simp only [reported, hissues]
  rw [hstage, hreported]
  refine ⟨fun j => ?_, hs.settled.perform hafter (hguard (input, op) hissues)⟩
  by_cases hji : j = i
  · subst hji
    simp only [Function.update_self]
    exact hnext
  · simp only [Function.update_of_ne hji]
    exact hs.code j

theorem invariant_step (htraffic : cfg.trafficLogging = true) {s t : State} {l : Label}
    (hs : Invariant cfg s) (hguard : Undisturbed s l) (h : step cfg s l = some t) :
    Invariant cfg t := by
  cases l with
  | clear =>
    obtain rfl := Option.some.inj h
    exact ⟨hs.code, hs.settled.keep _⟩
  | engine l =>
    obtain ⟨e, he, rfl⟩ := Option.map_eq_some_iff.mp h
    cases l with
    | proceed i env => exact invariant_proceed hs he hguard
    | receive i f =>
      obtain ⟨⟨a, ha⟩, rfl⟩ := Engine.step_receive he
      have hidle : s.stage i = .idle := by
        have hcode := hs.code i
        rw [ha] at hcode
        exact hcode
      have hstage : stageAfter cfg s (.receive i f) = s.stage := by
        rw [stageAfter, ← hidle, Function.update_eq_self]
      rw [hstage]
      refine ⟨fun j => ?_, hs.settled.keep _⟩
      by_cases hji : j = i
      · subst hji
        simp only [Function.update_self, hidle]
        exact packetProcessor_logs htraffic f
      · simp only [Function.update_of_ne hji]
        exact hs.code j
    | _ =>
      have hthreads : e.threads = s.engine.threads :=
        Engine.threads_of_other he (fun _ _ hl => by cases hl) fun _ _ hl => by cases hl
      refine ⟨fun j => ?_, hs.settled.keep _⟩
      rw [hthreads]
      exact hs.code j

/-- With traffic logging on, in every run in which no thread looks for a connection that another
thread has missed and not yet put into the list, and each such connection gets the memory to be
put there, no connection is reported twice unless it has left the list in between, and each
report tells of the connection that was looked for. -/
theorem noRepeat_of_undisturbed (htraffic : cfg.trafficLogging = true) (clock : Tick)
    {ls : List Label} {s : State} (hrun : run (step cfg) (.initial clock) ls = some s)
    (hguard : Guarded (step cfg) Undisturbed (.initial clock) ls) :
    NoRepeat s ∧ ∀ report ∈ s.reports, tells cfg report.event report.entry = true := by
  have hs : Invariant cfg s :=
    guarded_invariant (fun _ _ _ => invariant_step htraffic) hrun hguard (invariant_initial clock)
  exact ⟨hs.settled.nodup, hs.settled.told⟩

instance decidableUndisturbed (s : State) : ∀ l : Label, Decidable (Undisturbed s l)
  | .engine (.proceed i env) => inferInstanceAs (Decidable (∀ issued ∈
      s.engine.issues (.proceed i env), undisturbed s.stage i env issued.2 = true))
  | .engine (.receive _ _) | .engine (.lookup _) | .engine (.tick _) | .engine .startCleanup
  | .engine .cleanupSection | .engine .cleanupLogged | .clear => .isTrue trivial

/-- Settings that report every connection and send it directly. -/
def reportEverything : Settings :=
  { Settings.proxyEverything with rules := [], trafficLogging := true, connectionCallback := true }

/-- A thread receives a datagram and takes the first `n` steps with it. -/
def works (i : Fin 4) (n : ℕ) : List Label :=
  .engine (.receive i (.ipv4 (.fromApp .udp (ipv4 8 8 8 8, 1000) []))) ::
    List.replicate n (.engine (.proceed i .app))

/-- A thread reports a connection and puts it into the list, and another one finds it there. -/
theorem noRepeat_one_after_another :
    ∃ s, run (step reportEverything) (.initial 0) (works 0 8 ++ works 1 6) = some s ∧
      s.reports.length = 1 ∧ NoRepeat s := by
  obtain ⟨s, hs, hreports⟩ := Option.map_eq_some_iff.mp (show
    (run (step reportEverything) (.initial 0) (works 0 8 ++ works 1 6)).map
      (fun s => s.reports.length) = some 1 by decide +kernel)
  exact ⟨s, hs, hreports, (noRepeat_of_undisturbed rfl 0 hs (by decide +kernel)).1⟩

/-- Two threads look for a connection before either of them has put it into the list, and both
report it. -/
theorem repeat_side_by_side :
    ¬ ∀ (cfg : Settings) (clock : Tick) (ls : List Label) (s : State), cfg.trafficLogging = true →
      run (step cfg) (.initial clock) ls = some s → NoRepeat s := by
  intro hnone
  obtain ⟨s, hs, hreports⟩ := Option.map_eq_some_iff.mp (show
    (run (step reportEverything) (.initial 0) (works 0 5 ++ works 1 5 ++
        [.engine (.proceed 0 .app), .engine (.proceed 1 .app)])).map
      (fun s => s.reports.map Report.entry) =
        some [⟨7, ipv4 8 8 8 8, 1000, .direct⟩, ⟨7, ipv4 8 8 8 8, 1000, .direct⟩]
    by decide +kernel)
  have hnodup := hnone reportEverything 0 _ s rfl hs
  rw [NoRepeat, hreports] at hnodup
  exact absurd hnodup (by decide)

end ProxyTun.Windows.ConnectionEvents
