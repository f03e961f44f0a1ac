import ProxyTun.Linux.PacketCallback
import ProxyTun.Packets.Engine
import ProxyTun.Windows.PacketProcessor

/-!
# Replies of the SOCKS5 proxy at the UDP relay

A reply names the remote end it comes from, and not the client it is for. The relay
searches the connection table, bucket by bucket, for an entry with that remote end.
-/
namespace ProxyTun.Replies
open Library Library.Transition

/-- The entry that the reply branch of `udp_relay_server` settles on. -/
def findClient (t : ConnTable) (remote : Ip × Port) : Option ConnectionInfo :=
  t.scan fun c => c.remote = remote

/-- Where the reply goes. The Linux relay sends every reply to the loopback address. -/
def replyTarget (pf : Platform) (c : ConnectionInfo) : Ip × Port :=
  match pf with
  | .windows => (c.srcIp, c.srcPort)
  | .linux => (loopback, c.srcPort)

/-- What the relay sends for a datagram of the proxy: the target and the payload. -/
def forwardReply (pf : Platform) (t : ConnTable) (datagram : List Byte) :
    Option ((Ip × Port) × List Byte) :=
  (decapsulate datagram).bind fun r => (findClient t r.1).map fun c => (replyTarget pf c, r.2)

/-- A datagram that the relay has sent to the proxy: the client on record and the remote end. -/
structure Exchange where
  client : Ip × Port
  remote : Ip × Port
  deriving DecidableEq, Repr

/-- The reply to a datagram: its client, its payload, and what the relay sent. -/
structure Delivery where
  client : Ip × Port
  payload : List Byte
  sent : Option ((Ip × Port) × List Byte)
  deriving DecidableEq, Repr

/-- The reply went to its client. -/
def Delivery.Right (d : Delivery) : Prop := d.sent = some (d.client, d.payload)

structure State (In Out : Type) where
  engine : Engine In Out
  exchanges : List Exchange
  deliveries : List Delivery

inductive Label (In : Type) where
  | engine (l : EngineLabel In)
  /-- The relay sends a datagram of the given client port to the proxy. -/
  | send (srcPort : Port)
  /-- The proxy's reply to a datagram reaches the relay. -/
  | reply (exchange : ℕ) (payload : List Byte)

variable {In Out : Type}

def State.initial (clock : Tick) : State In Out := ⟨.initial clock, [], []⟩

/-- What the relay records of a datagram that it sends, if the table knows its port. -/
def exchangeOf (pf : Platform) (t : ConnTable) (srcPort : Port) : Option Exchange :=
  match t.entry srcPort, t.getConnection pf srcPort with
  | some c, some remote => some ⟨(c.srcIp, srcPort), remote⟩
  | _, _ => none

def deliver (pf : Platform) (t : ConnTable) (payload : List Byte) (x : Exchange) : Delivery :=
  ⟨x.client, payload, forwardReply pf t (socks5Header x.remote ++ payload)⟩

def step (pf : Platform) (routine : In → Routine Out Unit) (s : State In Out) :
    Label In → Option (State In Out)
  | .engine l => (s.engine.step pf routine l).map fun e => { s with engine := e }
  | .send p => some { s with
      engine := (s.engine.lookup pf p).2
      exchanges := s.exchanges ++ (exchangeOf pf s.engine.table p).toList }
  | .reply k payload => (s.exchanges[k]?).map fun x =>
      { s with deliveries := s.deliveries ++ [deliver pf s.engine.table payload x] }

/-- The client's entry still stands for the remote end and leads to the client's address, and
no entry with the same remote end comes before it in the table. -/
def leadsBack (pf : Platform) (t : ConnTable) (x : Exchange) : Bool :=
  match t.entry x.client.2 with
  | some c => c.remote = x.remote && (replyTarget pf c).1 = x.client.1 &&
      t.ComesFirst (fun c' => c'.remote = x.remote) c
  | none => false

/-- A reply comes only while the table leads back to its client. -/
def answersLeadBack (pf : Platform) (s : State In Out) : Label In → Bool
  | .reply k _ => (s.exchanges[k]?).all (leadsBack pf s.engine.table)
  | _ => true

theorem deliver_right_iff (pf : Platform) (t : ConnTable) (payload : List Byte) (x : Exchange) :
    (deliver pf t payload x).Right ↔ leadsBack pf t x = true := by
  have hsent : (deliver pf t payload x).sent =
      (findClient t x.remote).map fun c => (replyTarget pf c, payload) := by
    simp [deliver, forwardReply, decapsulate_socks5Header]
  have hport : ∀ c, (replyTarget pf c).2 = c.srcPort := fun c => by cases pf <;> rfl
  rw [Delivery.Right, hsent, Option.map_eq_some_iff]
  constructor
  · rintro ⟨c, hc, htarget⟩
    obtain ⟨hentry, hremote, hfirst⟩ := (ChainedTable.scan_eq_some_iff t _ c).mp hc
    have hclient : replyTarget pf c = x.client := (Prod.mk.inj htarget).1
    rw [← hport, hclient] at hentry
    simp only [leadsBack, hentry, hclient, hfirst, decide_true, Bool.and_true]
    exact hremote
  · intro h
    unfold leadsBack at h
    split at h
    · next c hentry =>
      simp only [Bool.and_eq_true, decide_eq_true_eq] at h
      obtain ⟨⟨hremote, haddress⟩, hfirst⟩ := h
      have hkey : c.srcPort = x.client.2 := ChainedTable.entry_key hentry
      refine ⟨c, (ChainedTable.scan_eq_some_iff t _ c).mpr
        ⟨hkey ▸ hentry, by simp [hremote], hfirst⟩, ?_⟩
      exact Prod.ext (Prod.ext haddress ((hport c).trans hkey)) rfl
    · cases h

/-- A step adds a wrong delivery only if it is a reply that the table does not lead back. -/
theorem right_step {pf : Platform} {routine : In → Routine Out Unit} {s t : State In Out}
    {l : Label In} (h : step pf routine s l = some t) :
    (∀ d ∈ t.deliveries, d.Right) ↔
      (∀ d ∈ s.deliveries, d.Right) ∧ answersLeadBack pf s l = true := by
  cases l with
  | engine l =>
    obtain ⟨e, -, rfl⟩ := Option.map_eq_some_iff.mp h
    simp [answersLeadBack]
  | send p =>
    obtain rfl := Option.some.inj h
    simp [answersLeadBack]
  | reply k payload =>
    obtain ⟨x, hx, rfl⟩ := Option.map_eq_some_iff.mp h
    simp only [answersLeadBack, hx, Option.all_some, List.forall_mem_append,
      List.forall_mem_singleton, deliver_right_iff]

/-- In every run, whatever the engine does in between, all replies reach their clients
exactly when each of them comes while the table leads back to its client. -/
theorem replies_right_iff (pf : Platform) (routine : In → Routine Out Unit) (clock : Tick)
    {ls : List (Label In)} {s : State In Out}
    (hrun : run (step pf routine) (.initial clock) ls = some s) :
    (∀ d ∈ s.deliveries, d.Right) ↔
      Guarded (step pf routine) (fun s l => answersLeadBack pf s l) (.initial clock) ls := by
  have hrecorded := guarded_iff_recorded (I := fun _ => True)
    (P := fun s : State In Out => ∀ d ∈ s.deliveries, d.Right)
    (G := fun s l => answersLeadBack pf s l = true) (fun _ _ _ _ _ => trivial)
    (fun _ _ _ _ h => right_step h) hrun trivial
  rw [hrecorded]
  simp [State.initial]

/-- A datagram of the client at port `port` of the address 10.0.0.2. -/
def datagram (port : Port) : Packet :=
  { Packet.fromApp .udp (ipv4 8 8 8 8, 1000) [42] with srcPort := port }

/-- A packet thread redirects the input in five operations, and the relay sends it on. -/
def exchanged (port : Port) (input : In) : List (Label In) :=
  (EngineLabel.processed input 5).map .engine ++ [.send port]

def windowsInput (p : Packet) : Windows.Frame := .ipv4 p
def linuxInput (p : Packet) : Linux.Queued := ⟨true, 28 + p.payload.length, 20, some p⟩

/-- Two clients of one remote end: on both platforms the reply to the first goes to the second,
whose port hashes to a lower bucket. -/
theorem reply_to_other_client :
    (run (step .windows (Windows.packetProcessor .proxyEverything)) (.initial 0)
        (exchanged 5000 (windowsInput (datagram 5000)) ++
          exchanged 4096 (windowsInput (datagram 4096)) ++ [.reply 0 [7]])).map
        State.deliveries =
      some [⟨(ipv4 10 0 0 2, 5000), [7], some ((ipv4 10 0 0 2, 4096), [7])⟩] ∧
    (run (step .linux (Linux.packetCallback .proxyEverything)) (.initial 0)
        (exchanged 5000 (linuxInput (datagram 5000)) ++
          exchanged 4096 (linuxInput (datagram 4096)) ++ [.reply 0 [7]])).map
        State.deliveries =
      some [⟨(ipv4 10 0 0 2, 5000), [7], some ((loopback, 4096), [7])⟩] := by
  decide +kernel

theorem reply_to_only_client :
    ∃ s, run (step .windows (Windows.packetProcessor .proxyEverything)) (.initial 0)
        (exchanged 5000 (windowsInput (datagram 5000)) ++ [.reply 0 [7]]) = some s ∧
      s.deliveries = [⟨(ipv4 10 0 0 2, 5000), [7], some ((ipv4 10 0 0 2, 5000), [7])⟩] ∧
      ((∀ d ∈ s.deliveries, d.Right) ↔
        Guarded (step .windows (Windows.packetProcessor .proxyEverything))
          (fun s l => answersLeadBack .windows s l) (.initial 0)
          (exchanged 5000 (windowsInput (datagram 5000)) ++ [.reply 0 [7]])) := by
  obtain ⟨s, hs, hdeliveries⟩ := Option.map_eq_some_iff.mp (show
    (run (step .windows (Windows.packetProcessor .proxyEverything)) (.initial 0)
      (exchanged 5000 (windowsInput (datagram 5000)) ++ [.reply 0 [7]])).map State.deliveries =
        some [⟨(ipv4 10 0 0 2, 5000), [7], some ((ipv4 10 0 0 2, 5000), [7])⟩]
    by decide +kernel)
  exact ⟨s, hs, hdeliveries, replies_right_iff _ _ 0 hs⟩

end ProxyTun.Replies
