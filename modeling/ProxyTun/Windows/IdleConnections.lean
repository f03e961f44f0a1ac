import ProxyTun.Windows.Flows

/-!
# Idle connections and the cleanup

A connection that neither side has begun to close may stay idle for any time, since
`transfer_handler` does not limit it. Its entry in the table is refreshed when a packet
of the relay is looked up, and not by the packets of the client.
-/
namespace ProxyTun.Windows.IdleConnections
open Library Library.Transition Flows

/-- The entry was created or looked up in the minute before the given time, not after it. -/
def usedInMinute (now : Tick) (c : ConnectionInfo) : Bool :=
  c.lastActivity.toNat ≤ now.toNat && now.toNat ≤ c.lastActivity.toNat + 60000

/-- The cleanup comes to the entry of a connection that is not closing only within a minute of
its last use. No other connection of the same client port takes the entry away or records
another destination port in it, and a SYN is redirected only with an entry in the table. -/
def keepsEntries (s : State) (l : EngineLabel Frame) : Bool :=
  keepsRecords s l && match l with
    | .cleanupSection => s.engine.sweep.all fun sw =>
      (sw.ahead .windows s.engine.table).all fun c =>
        s.flows.all fun f => !f.isQuiet || f.clientPort != c.srcPort || usedInMinute sw.now c
    | _ => match s.engine.issues l with
      | some (_, .removeConnection q) => s.flows.all fun f => !f.isQuiet || f.clientPort != q
      | some (.ipv4 p, .emit (.send .toRelay _)) =>
        !p.opensTcp || (s.engine.table.destination p.srcPort).isSome
      | _ => true

/-- Every connection that is not closing has an entry. -/
def Present (s : State) : Prop :=
  ∀ f ∈ s.flows, f.isQuiet = true → (s.engine.table.destination f.clientPort).isSome

variable {cfg : Settings} {s t : State} {e : Engine Frame Output} {l : EngineLabel Frame}

/-- An entry that was used within the minute before the cleanup's time is not expired. -/
theorem not_expired_of_usedInMinute {now : Tick} {c : ConnectionInfo}
    (h : usedInMinute now c = true) : Sweep.expired now c = false := by
  rw [Bool.eq_false_iff]
  intro hex
  simp only [usedInMinute, Bool.and_eq_true, decide_eq_true_eq] at h
  rw [Sweep.expired_iff, BitVec.lt_def] at hex
  omega

theorem present_cleanup (hs : Present s) (hg : keepsEntries s .cleanupSection)
    (h : s.engine.step .windows (packetProcessor cfg) .cleanupSection = some e) {f : Flow}
    (hf : f ∈ s.flows) (hq : f.isQuiet = true) : (e.table.destination f.clientPort).isSome := by
  obtain ⟨sw, next, evicted, hsw, heff, -⟩ := Engine.step_cleanupSection h
  obtain ⟨d, hd⟩ := Option.isSome_iff_exists.mp (hs f hf hq)
  obtain ⟨c, hc, -⟩ := Option.map_eq_some_iff.mp hd
  rcases heff.entry_or_evicted f.clientPort c hc with hkept | hevicted
  · simp [ConnTable.destination, hkept]
  · have hused : usedInMinute sw.now c = true := by
      have hahead := heff.evicted_ahead c hevicted
      have hport : c.srcPort = f.clientPort := ChainedTable.entry_key hc
      have hall := (Bool.and_eq_true_iff.mp hg).2
      simp only [hsw, Option.all_some, List.all_eq_true] at hall
      simpa [hq, hport] using hall c hahead f hf
    have hexpired := heff.evicted_expired c hevicted
    rw [not_expired_of_usedInMinute hused] at hexpired
    cases hexpired

theorem present_engine (hs : Present s) (hg : keepsEntries s l)
    (h : s.engine.step .windows (packetProcessor cfg) l = some e) {f : Flow}
    (hf : f ∈ s.flows) (hq : f.isQuiet = true) : (e.table.destination f.clientPort).isSome := by
  rcases Engine.destination_step h f.clientPort with
    hsame | ⟨input, srcIp, destIp, destPort, -, hnew⟩ | ⟨⟨input, hissues⟩, -⟩ | ⟨rfl, -⟩
  · rw [hsame]
    exact hs f hf hq
  · rw [hnew]
    rfl
  · have hkept := (Bool.and_eq_true_iff.mp hg).2
    cases l with
    | proceed i env =>
      simp only [hissues, List.all_eq_true] at hkept
      simpa [hq] using hkept f hf
    | _ => cases hissues
  · exact present_cleanup hs hg h hf hq

theorem present_step (hs : Present s) (hg : keepsEntries s l)
    (h : step Flow.isQuiet cfg s l = some t) : Present t := by
  obtain ⟨e, he, rfl⟩ := Option.map_eq_some_iff.mp h
  intro g hgflow hq
  rcases mem_flows_observe hgflow with ⟨f, hf, hclient, -, hquiet⟩ | ⟨p, q, hissues, hopens, rfl⟩
  · rw [hclient]
    exact present_engine hs hg he hf (hquiet hq)
  · have hkept := (Bool.and_eq_true_iff.mp hg).2
    cases l with
    | proceed i env =>
      simp only [hissues, hopens, Bool.not_true, Bool.false_or] at hkept
      rw [← destination_of_emit he hissues] at hkept
      exact hkept
    | _ => cases hissues

theorem findsEntry_of_present (hcode : s.engine.ThreadsSatisfy CodeOf) (hs : Present s) :
    findsEntry Flow.isQuiet s l = true := by
  unfold findsEntry
  split
  · next p q hissues =>
    obtain ⟨next, hconcerns, -⟩ := hcode.of_issues hissues
    obtain ⟨rfl, hrelay⟩ := hconcerns.1
    cases ht : p.transport with
    | udp => rfl
    | tcp flags =>
      rw [ht] at hrelay
      cases hdue : due Flow.isQuiet p s.flows with
      | none => simp
      | some port =>
        obtain ⟨f, hf, hq, hends, -⟩ := due_some hdue
        have hpresent := hs f hf hq
        rw [clientPort_of_ends hrelay hends] at hpresent
        simp [hpresent]
  · rfl

/-- A connection of port 5000 is opened, idles, and is met by the cleanup, which comes to
the bucket of the port in its section 137. Then the relay sends. -/
def idleFor (pause : Tick) : List (EngineLabel Frame) :=
  EngineLabel.processed
      (.ipv4 (.fromApp (.tcp ⟨true, false, false, false⟩) (ipv4 1 1 1 1, 443) [])) 5 ++
    [.tick pause, .startCleanup] ++ List.replicate 137 .cleanupSection ++
    EngineLabel.processed (.ipv4 ⟨ipv4 10 0 0 2, ipv4 1 1 1 1, localProxyPort, 5000, true,
      .tcp ⟨false, true, false, false⟩, [7]⟩) 2

end ProxyTun.Windows.IdleConnections
