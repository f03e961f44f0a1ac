import ProxyTun.Windows.FreshFlows

/-!
# TCP redirection as address translation

A redirected SYN, a later packet of its flow and a packet of the relay pass through three
branches of the loop. The later packets are rewritten as the SYN was, and the packets of the
relay undo the rewriting as far as the table has the destination port of the flow.
-/
namespace ProxyTun.Windows
open Library Routine

/-- The source and the destination of a packet. -/
def ends (p : Packet) : (Ip × Port) × (Ip × Port) :=
  ((p.srcAddr, p.srcPort), (p.dstAddr, p.dstPort))

def bothLoopback (p : Packet) : Bool := isLoopback p.srcAddr && isLoopback p.dstAddr

/-- The later packets of a flow are rewritten to the addresses, ports and direction of its
redirected SYN. -/
def RewrittenAlike (cfg : Settings) (env : Environment) (s : Shared) (syn redirected : Packet) :
    Prop :=
  ∀ (flags : TcpFlags) (p : Packet), p.transport = .tcp flags → p.outbound = true →
    ends p = ends syn →
    ∃ q, s.outputs .windows env (packetProcessor cfg (.ipv4 p)) = [.send .toRelay q] ∧
      ends q = ends redirected ∧ q.outbound = redirected.outbound

/-- What the relay sends back on the accepted connection comes from where the SYN was addressed
and goes to where it came from. -/
def ComesBack (cfg : Settings) (env : Environment) (s : Shared) (syn redirected : Packet) : Prop :=
  ∀ (flags : TcpFlags) (reply : Packet), reply.transport = .tcp flags → reply.outbound = true →
    ends reply = (ends redirected).swap →
    ∃ r, s.outputs .windows env (packetProcessor cfg (.ipv4 reply)) = [.send .fromRelay r] ∧
      ends r = (ends syn).swap ∧ r.outbound = bothLoopback syn

/-- The table has the destination port of a packet on record, or nothing while that port is the
relay's own. -/
def RecordsPort (t : ConnTable) (p : Packet) : Prop :=
  (∃ d ∈ t.destination p.srcPort, d.2 = p.dstPort) ∨
    t.destination p.srcPort = none ∧ p.dstPort = localProxyPort

variable {cfg : Settings} {env : Environment} {flags : TcpFlags} {p : Packet} {s : Shared}

@[simp] theorem ends_turnRound (p : Packet) :
    ends (turnRound p) = if bothLoopback p then ends p
      else ((p.dstAddr, p.srcPort), (p.srcAddr, p.dstPort)) := by
  unfold turnRound bothLoopback
  split_ifs <;> rfl

@[simp] theorem outbound_turnRound (p : Packet) :
    (turnRound p).outbound = (bothLoopback p && p.outbound) := by
  unfold turnRound bothLoopback
  split_ifs with h <;> simp [h]

/-- The packet of a tracked port is redirected, and takes the entry with it if it ends the
flow. -/
theorem redirects_tracked (htcp : p.transport = .tcp flags) (hout : p.outbound = true)
    (hport : p.srcPort ≠ localProxyPort) (htracked : s.table.isConnectionTracked p.srcPort = true) :
    s.outputs .windows env (packetProcessor cfg (.ipv4 p)) = [.send .toRelay (redirectTcp p)] ∧
      (s.after .windows env (packetProcessor cfg (.ipv4 p))).table =
        if flags.fin || flags.rst then s.table.removeConnection p.srcPort else s.table := by
  rw [packetProcessor_tcp cfg htcp hout hport, Shared.outputs, Shared.after, Code.eval_call]
  simp only [Shared.handle, Shared.perform, htracked, if_true]
  cases flags.fin || flags.rst <;> exact ⟨rfl, rfl⟩

theorem redirects_untracked {q : Packet} (htcp : p.transport = .tcp flags)
    (hout : p.outbound = true) (hport : p.srcPort ≠ localProxyPort)
    (huntracked : s.table.isConnectionTracked p.srcPort = false)
    (hsent : s.outputs .windows env (packetProcessor cfg (.ipv4 p)) = [.send .toRelay q]) :
    q = redirectTcp p ∧
      ∀ d ∈ (s.after .windows env (packetProcessor cfg (.ipv4 p))).table.destination p.srcPort,
        d = (p.dstAddr, p.dstPort) := by
  obtain ⟨s', -, hs'⟩ := eval_processUntracked cfg env p s redirectTcp
  have heval : (packetProcessor cfg (.ipv4 p)).eval (Shared.handle .windows env) (s, []) =
      (carryOut redirectTcp p (decision cfg env p)).eval (Shared.handle .windows env) (s', []) := by
    rw [packetProcessor_tcp cfg htcp hout hport, Code.eval_call, ← hs']
    simp only [Shared.handle, Shared.perform, huntracked]
    rfl
  rw [Shared.outputs, heval] at hsent
  rw [Shared.after, heval]
  cases hdecision : decision cfg env p with
  | proxy =>
    rw [hdecision] at hsent
    have hq : [Output.send .toRelay (redirectTcp p)] = [.send .toRelay q] := hsent
    refine ⟨by simpa using hq.symm, ?_⟩
    intro d hd
    have hd' : d ∈ ConnTable.destination (ConnTable.addConnection .windows s'.clock env.allocated
      p.srcPort p.srcAddr p.dstAddr p.dstPort s'.table) p.srcPort := hd
    rw [ConnTable.destination_addConnection, if_pos rfl] at hd'
    split_ifs at hd' with hrecorded
    · exact (Option.some.inj hd').symm
    · cases hd'
  | direct =>
    rw [hdecision] at hsent
    cases hsent
  | block =>
    rw [hdecision] at hsent
    cases hsent

theorem outputs_reply {reply : Packet} (htcp : reply.transport = .tcp flags)
    (hout : reply.outbound = true) (hport : reply.srcPort = localProxyPort) :
    s.outputs .windows env (packetProcessor cfg (.ipv4 reply)) =
      [.send .fromRelay (restoreTcp (s.table.destination reply.dstPort) reply)] := by
  have hloop : packetProcessor cfg (.ipv4 reply) = Code.call (.getConnection reply.dstPort)
      fun found => (do
        onlyIf (flags.fin || flags.rst) (removeConnection reply.dstPort)
        emit (.send .fromRelay (restoreTcp found reply))) := by
    simp only [packetProcessor, hout, htcp, processOutboundTcp, if_pos hport, if_true]
    rfl
  rw [hloop, ← ConnTable.getConnection_windows, Shared.outputs, Code.eval_call]
  cases flags.fin || flags.rst <;> rfl

/-- The source port of a packet of the relay after the lookup. -/
def restoredPort (found : Option (Ip × Port)) : Port := (found.map Prod.snd).getD localProxyPort

theorem ports_of_reply {syn reply : Packet} (h : ends reply = (ends (redirectTcp syn)).swap) :
    reply.srcPort = localProxyPort ∧ reply.dstPort = syn.srcPort := by
  obtain ⟨hsrc, hdst, -⟩ := turnRound_fields { syn with dstPort := localProxyPort }
  exact ⟨(congrArg (fun e => e.1.2) h).trans hdst, (congrArg (fun e => e.2.2) h).trans hsrc⟩

/-- Redirection and restoration exchange the ends twice, whichever of them are loopback. -/
theorem restoreTcp_redirectTcp {syn reply : Packet}
    (hreply : reply.outbound = true) (hends : ends reply = (ends (redirectTcp syn)).swap)
    (found : Option (Ip × Port)) :
    ends (restoreTcp found reply) =
        ((syn.dstAddr, restoredPort found), (syn.srcAddr, syn.srcPort)) ∧
      (restoreTcp found reply).outbound = bothLoopback syn := by
  have hturned : ∀ port, ends (turnRound { reply with srcPort := port }) =
        ((syn.dstAddr, port), (syn.srcAddr, syn.srcPort)) ∧
      (turnRound { reply with srcPort := port }).outbound = bothLoopback syn := by
    intro port
    have hredirected : bothLoopback { syn with dstPort := localProxyPort } = bothLoopback syn := rfl
    have hrestored : bothLoopback { reply with srcPort := port } = bothLoopback reply := rfl
    rw [redirectTcp, ends_turnRound, hredirected] at hends
    rw [ends_turnRound, outbound_turnRound, hrestored]
    cases hboth : bothLoopback syn with
    | true =>
      simp only [ends, hboth, if_true, Prod.swap_prod_mk, Prod.mk.injEq] at hends
      obtain ⟨⟨hsrc, -⟩, hdst, hclient⟩ := hends
      have hsame : bothLoopback reply = true := by
        rw [← hboth, bothLoopback, bothLoopback, hsrc, hdst, Bool.and_comm]
      simp [hsame, ends, hsrc, hdst, hclient, hreply]
    | false =>
      simp only [ends, hboth, Bool.false_eq_true, if_false, Prod.swap_prod_mk,
        Prod.mk.injEq] at hends
      obtain ⟨⟨hsrc, -⟩, hdst, hclient⟩ := hends
      have hsame : bothLoopback reply = false := by
        rw [← hboth, bothLoopback, bothLoopback, hsrc, hdst]
      simp [hsame, hsrc, hdst, hclient]
  cases found with
  | none =>
    have hnone := hturned localProxyPort
    have hport : { reply with srcPort := localProxyPort } = reply := by
      rw [← (ports_of_reply hends).1]
    rw [hport] at hnone
    exact hnone
  | some d => exact hturned d.2

theorem restoredPort_eq_iff {t : ConnTable} :
    restoredPort (t.destination p.srcPort) = p.dstPort ↔ RecordsPort t p := by
  unfold restoredPort RecordsPort
  cases h : t.destination p.srcPort with
  | none => simp [eq_comm]
  | some d => simp

/-- A reply to any redirected SYN. -/
def replyTo (redirected : Packet) : Packet where
  srcAddr := redirected.dstAddr
  dstAddr := redirected.srcAddr
  srcPort := redirected.dstPort
  dstPort := redirected.srcPort
  outbound := true
  transport := .tcp ⟨true, true, false, false⟩
  payload := []

theorem comesBack_iff (cfg : Settings) (env : Environment) (s : Shared) (syn : Packet) :
    ComesBack cfg env s syn (redirectTcp syn) ↔ RecordsPort s.table syn := by
  have hsent : ∀ (flags : TcpFlags) (reply : Packet), reply.transport = .tcp flags →
      reply.outbound = true → ends reply = (ends (redirectTcp syn)).swap →
      s.outputs .windows env (packetProcessor cfg (.ipv4 reply)) =
        [.send .fromRelay (restoreTcp (s.table.destination syn.srcPort) reply)] := by
    intro flags reply htcp hreply hends
    obtain ⟨hsrc, hdst⟩ := ports_of_reply hends
    rw [outputs_reply htcp hreply hsrc, hdst]
  rw [← restoredPort_eq_iff]
  constructor
  · intro h
    obtain ⟨r, hr, hends, -⟩ := h _ (replyTo (redirectTcp syn)) rfl rfl rfl
    rw [hsent _ _ rfl rfl rfl] at hr
    obtain ⟨-, rfl⟩ : Route.fromRelay = .fromRelay ∧
        restoreTcp (s.table.destination syn.srcPort) (replyTo (redirectTcp syn)) = r := by
      simpa using hr
    rw [(restoreTcp_redirectTcp rfl rfl _).1] at hends
    exact congrArg (fun e => e.1.2) hends
  · intro hport flags reply htcp hreply hends
    obtain ⟨hends', hdirection⟩ := restoreTcp_redirectTcp hreply hends
      (s.table.destination syn.srcPort)
    refine ⟨_, hsent flags reply htcp hreply hends, ?_, hdirection⟩
    rw [hends', hport]
    rfl

/-- Every later packet of a flow that has an entry is redirected as the flow's SYN was. -/
theorem rewrittenAlike_of_tracked {syn : Packet} (cfg : Settings) (env : Environment)
    (hout : syn.outbound = true) (hport : syn.srcPort ≠ localProxyPort)
    (htracked : s.table.isConnectionTracked syn.srcPort = true) :
    RewrittenAlike cfg env s syn (redirectTcp syn) := by
  intro flags p htcp hp hends
  obtain ⟨⟨hsrc, hsrcPort⟩, hdst, hdstPort⟩ : (p.srcAddr = syn.srcAddr ∧ p.srcPort = syn.srcPort) ∧
      p.dstAddr = syn.dstAddr ∧ p.dstPort = syn.dstPort := by
    simpa only [ends, Prod.mk.injEq] using hends
  refine ⟨redirectTcp p, (redirects_tracked htcp hp (hsrcPort ▸ hport) (hsrcPort ▸ htracked)).1, ?_⟩
  rw [redirectTcp, redirectTcp, ends_turnRound, ends_turnRound, outbound_turnRound,
    outbound_turnRound]
  simp [ends, bothLoopback, hsrc, hsrcPort, hdst, hp, hout]

/-- The entry that a port has in one state is the one it has in the other. -/
def EntryStands (s s' : Shared) (port : Port) : Prop :=
  (s'.table.destination port).isSome = true ∧
    s'.table.destination port = s.table.destination port

/-- While the entry stands that a redirected SYN left behind, its destination port is on record
if and only if the SYN found its port untracked or its destination port on record. -/
theorem recordsPort_iff_of_stands {syn redirected : Packet} {s' : Shared}
    (htcp : syn.transport = .tcp flags) (hout : syn.outbound = true)
    (hport : syn.srcPort ≠ localProxyPort)
    (hsent : s.outputs .windows env (packetProcessor cfg (.ipv4 syn)) =
      [.send .toRelay redirected])
    (hstands : EntryStands (s.after .windows env (packetProcessor cfg (.ipv4 syn))) s'
      syn.srcPort) :
    RecordsPort s'.table syn ↔
      s.table.isConnectionTracked syn.srcPort = false ∨ RecordsPort s.table syn := by
  obtain ⟨hsome, hsame⟩ := hstands
  cases htracked : s.table.isConnectionTracked syn.srcPort with
  | false =>
    obtain ⟨d, hd⟩ := Option.isSome_iff_exists.mp hsome
    have hdest := (redirects_untracked htcp hout hport htracked hsent).2 d (hsame ▸ hd)
    have hrecords : RecordsPort s'.table syn := .inl ⟨d, hd, by rw [hdest]⟩
    simp [hrecords]
  | true =>
    rw [(redirects_tracked htcp hout hport htracked).2] at hsame
    have hkept : s'.table.destination syn.srcPort = s.table.destination syn.srcPort := by
      split_ifs at hsame
      · rw [hsame, ConnTable.destination_removeConnection, if_pos rfl] at hsome
        cases hsome
      · exact hsame
    simp [RecordsPort, hkept]

/-- A redirected SYN, in whatever state it came. The later packets of its flow are rewritten alike
as long as it has an entry. The packets of the relay come back as they should if and only if the
SYN's destination port is on record; while the entry stands that the SYN left behind, this is so
if and only if the SYN found its port untracked or its destination port on record. -/
theorem redirection_faithful_iff {syn redirected : Packet} {s' : Shared} (cfg' : Settings)
    (env' : Environment) (hopens : syn.opensTcp = true) (hout : syn.outbound = true)
    (hport : syn.srcPort ≠ localProxyPort)
    (hsent : s.outputs .windows env (packetProcessor cfg (.ipv4 syn)) =
      [.send .toRelay redirected]) :
    (s'.table.isConnectionTracked syn.srcPort = true →
      RewrittenAlike cfg' env' s' syn redirected) ∧
    (ComesBack cfg' env' s' syn redirected ↔ RecordsPort s'.table syn) ∧
    (EntryStands (s.after .windows env (packetProcessor cfg (.ipv4 syn))) s' syn.srcPort →
      (ComesBack cfg' env' s' syn redirected ↔
        s.table.isConnectionTracked syn.srcPort = false ∨ RecordsPort s.table syn)) := by
  obtain ⟨flags, htcp⟩ : ∃ flags, syn.transport = .tcp flags := by
    cases h : syn.transport with
    | tcp flags => exact ⟨flags, rfl⟩
    | udp => simp [Packet.opensTcp, h] at hopens
  have hredirected : redirected = redirectTcp syn := by
    cases htracked : s.table.isConnectionTracked syn.srcPort with
    | false => exact (redirects_untracked htcp hout hport htracked hsent).1
    | true =>
      rw [(redirects_tracked htcp hout hport htracked).1] at hsent
      simpa using hsent.symm
  subst hredirected
  refine ⟨rewrittenAlike_of_tracked cfg' env' hout hport, comesBack_iff cfg' env' s' syn, ?_⟩
  intro hstands
  rw [comesBack_iff]
  exact recordsPort_iff_of_stands htcp hout hport hsent hstands

/-- A SYN to a web server from the port of the datagram `toRemote`. -/
def synToWeb : Packet := .fromApp (.tcp ⟨true, false, false, false⟩) (ipv4 9 9 9 9, 443) []

/-- The shared data behind a packet that is worked through alone. -/
def processedAlone (p : Packet) (s : Shared) : Shared :=
  s.after .windows .app (packetProcessor .proxyEverything (.ipv4 p))

/-- A connection from a port that has no entry yet is translated faithfully. -/
theorem redirection_faithful_newPort :
    ComesBack .proxyEverything .app (processedAlone synToWeb (.initial 0)) synToWeb
      (redirectTcp synToWeb) := by
  have hfaithful := @redirection_faithful_iff .proxyEverything .app (.initial 0) synToWeb
    (redirectTcp synToWeb) (processedAlone synToWeb (.initial 0)) .proxyEverything .app rfl rfl
    (by decide) (by decide)
  exact (hfaithful.2.2 ⟨by decide, rfl⟩).mpr (.inl (by decide))

/-- After a datagram to port 1000 the packets of the relay for a connection to port 443 come from
port 1000. -/
theorem reply_after_datagram :
    let s := processedAlone toRemote (.initial 0)
    let s' := processedAlone synToWeb s
    s.outputs .windows .app (packetProcessor .proxyEverything (.ipv4 synToWeb)) =
        [.send .toRelay (redirectTcp synToWeb)] ∧
      (s'.table.destination synToWeb.srcPort).isSome = true ∧
      (s'.outputs .windows .app
          (packetProcessor .proxyEverything (.ipv4 (replyTo (redirectTcp synToWeb))))).map
        (fun | .send _ p => some (ends p) | .passIpv6 => none) =
        [some ((ipv4 9 9 9 9, 1000), (ipv4 10 0 0 2, 5000))] ∧
      (ends synToWeb).swap = ((ipv4 9 9 9 9, 443), (ipv4 10 0 0 2, 5000)) := by
  decide

end ProxyTun.Windows
