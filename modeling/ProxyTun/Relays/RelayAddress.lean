import ProxyTun.Linux.AssociateBuffer

/-!
# The relay that the proxy names

The proxy's reply to UDP ASSOCIATE names the relay for datagrams. `socks5_udp_associate` takes its
address and port out of the reply, and `establish_udp_associate` keeps them. Only the engine for
Linux looks at the type of the address, and puts the proxy's own address in place of 0.0.0.0.
-/
namespace ProxyTun.Windows
open Library.Code Linux.Associate
open Linux (Associate)

/-- The request for the association, and the relay's address in the reply. -/
def requestRelay : Associate (Ip × Port) := do
  store 0 [5]
  store 1 [3]
  store 2 [0]
  store 3 [1]
  store 4 [0]
  store 5 [0]
  store 6 [0]
  store 7 [0]
  store 8 [0]
  store 9 [0]
  sendAll 10
  let len ← recv 10
  let version ← load 0
  let status ← load 1
  check (10 ≤ len && version = 5 && status = 0)
  let a ← load 4
  let b ← load 5
  let c ← load 6
  let d ← load 7
  let high ← load 8
  let low ← load 9
  pure (ipv4 a b c d, high ++ low)

/-- `socks5_udp_relay_addr` after the login, for a proxy's name that resolves to `socks5Ip`. -/
def establishRelay (socks5Ip : Ip) : Associate (Ip × Port) := do
  check (socks5Ip ≠ 0)
  requestRelay

end ProxyTun.Windows

namespace ProxyTun.Linux
open Library.Code Associate

/-- `socks5_udp_relay_addr` after the login, for a proxy's name that resolves to `socks5Ip`. -/
def establishRelay (socks5Ip : Ip) : Associate (Ip × Port) := do
  check (socks5Ip ≠ 0)
  let relay ← requestRelay
  pure (if relay.1 = 0 then (socks5Ip, relay.2) else relay)

end ProxyTun.Linux

namespace ProxyTun.Relays
open Library.Code Linux Linux.Associate

/-- The IPv4 address in a reply. -/
def relayIp (reply : List Byte) : Ip :=
  ipv4 (reply.getD 4 0) (reply.getD 5 0) (reply.getD 6 0) (reply.getD 7 0)

def relayPort (reply : List Byte) : Port := reply.getD 8 0 ++ reply.getD 9 0

/-- The reply accepts the association. -/
def accepts (reply : List Byte) : Bool := reply.getD 0 0 = 5 && reply.getD 1 0 = 0

/-- The relay that a reply stands for: none for another type of address, and the proxy itself for
0.0.0.0. -/
def namedRelay (socks5Ip : Ip) (reply : List Byte) : Option (Ip × Port) :=
  if accepts reply && reply.getD 3 0 = 1 then
    some (if relayIp reply = 0 then socks5Ip else relayIp reply, relayPort reply)
  else none

/-- The request is sent and the reply arrives in one piece. -/
structure Replies (b : StackBuffer) (reply : List Byte) : Prop where
  sends : b.sends.headD false = true
  replies : b.replies.headD none = some reply
  length : 10 ≤ reply.length

variable {b : StackBuffer} {reply : List Byte}

theorem receive_of_replies {size : ℕ} (hsize : 10 ≤ size) (h : 10 ≤ reply.length)
    (hb : b.replies.headD none = some reply) :
    10 ≤ (b.receive size).1 ∧ ∀ i < 10, (b.receive size).2.bytes i = reply.getD i 0 := by
  have hlength : 10 ≤ (reply.take size).length := by
    rw [List.length_take]
    omega
  rw [StackBuffer.receive, hb]
  constructor
  · exact Int.ofNat_le.mpr hlength
  · intro i hi
    have hin : 0 ≤ i ∧ i < 0 + (reply.take size).length := by omega
    simp only [StackBuffer.store, if_pos hin, Nat.sub_zero]
    rw [List.getD_eq_getElem?_getD, List.getElem?_take_of_lt (by omega),
      List.getD_eq_getElem?_getD]

theorem Replies.store (h : Replies b reply) (index : ℕ) (data : List Byte) :
    Replies (b.store index data) reply := ⟨h.sends, h.replies, h.length⟩

theorem outcome_request {α : Type} {size : ℕ} {f : ℤ → Associate α} {result : Option α}
    (h : Replies b reply) (hsize : 10 ≤ size)
    (hf : ∀ (len : ℤ) (received : StackBuffer), 10 ≤ len →
      (∀ i < 10, received.bytes i = reply.getD i 0) →
        (outcome StackBuffer.answer (f len) received).1 = result) :
    (outcome StackBuffer.answer (sendAll 10 >>= fun _ => recv size >>= f) b).1 = result := by
  have hreceived := @receive_of_replies { b with sends := b.sends.tail } reply size hsize h.length
    h.replies
  rw [outcome_sendAll_bind, if_pos h.sends, outcome_recv_bind]
  exact hf _ _ hreceived.1 hreceived.2

theorem windows_requestRelay (h : Replies b reply) :
    (outcome StackBuffer.answer Windows.requestRelay b).1 =
      if accepts reply then some (relayIp reply, relayPort reply) else none := by
  unfold Windows.requestRelay
  simp only [outcome_store_bind]
  apply @outcome_request _ reply
  · repeat apply Replies.store
    exact h
  · rfl
  · intro len received hlen hbytes
    simp only [outcome_load_bind, outcome_checked_bind, hbytes 0 (by omega), hbytes 1 (by omega),
      hbytes 4 (by omega), hbytes 5 (by omega), hbytes 6 (by omega), hbytes 7 (by omega),
      hbytes 8 (by omega), hbytes 9 (by omega), hlen, decide_true, Bool.true_and]
    change Prod.fst (if accepts reply then _ else _) = _
    cases accepts reply <;> rfl

theorem linux_requestRelay (h : Replies b reply) :
    (outcome StackBuffer.answer Linux.requestRelay b).1 =
      if accepts reply && reply.getD 3 0 = 1 then some (relayIp reply, relayPort reply)
      else none := by
  unfold Linux.requestRelay
  simp only [outcome_store_bind]
  apply @outcome_request _ reply
  · repeat apply Replies.store
    exact h
  · omega
  · intro len received hlen hbytes
    simp only [outcome_load_bind, outcome_checked_bind, hbytes 0 (by omega), hbytes 1 (by omega),
      hbytes 3 (by omega), hbytes 4 (by omega), hbytes 5 (by omega), hbytes 6 (by omega),
      hbytes 7 (by omega), hbytes 8 (by omega), hbytes 9 (by omega), hlen, decide_true,
      Bool.true_and]
    change Prod.fst (if accepts reply then _ else _) = _
    cases accepts reply with
    | false => rfl
    | true =>
      rw [Bool.true_and]
      cases decide (reply.getD 3 0 = 1) <;> rfl

theorem outcome_resolved {c : Associate (Ip × Port)} (socks5Ip : Ip) :
    (outcome StackBuffer.answer (check (socks5Ip ≠ 0) >>= fun _ => c) b).1 =
      if socks5Ip = 0 then none else (outcome StackBuffer.answer c b).1 := by
  rw [outcome_checked_bind]
  split_ifs <;> simp_all

theorem windows_establishRelay (h : Replies b reply) (socks5Ip : Ip) :
    (outcome StackBuffer.answer (Windows.establishRelay socks5Ip) b).1 =
      if socks5Ip = 0 then none
      else if accepts reply then some (relayIp reply, relayPort reply) else none := by
  rw [Windows.establishRelay, outcome_resolved, windows_requestRelay h]

theorem linux_establishRelay (h : Replies b reply) (socks5Ip : Ip) :
    (outcome StackBuffer.answer (Linux.establishRelay socks5Ip) b).1 =
      if socks5Ip = 0 then none else namedRelay socks5Ip reply := by
  have hnamed (result : Option (Ip × Port) × StackBuffer) :
      (result.1.elim (none, result.2) fun relay =>
        outcome StackBuffer.answer (pure (if relay.1 = 0 then (socks5Ip, relay.2) else relay) :
          Associate (Ip × Port)) result.2).1 =
        result.1.map fun relay => if relay.1 = 0 then (socks5Ip, relay.2) else relay := by
    cases result.1 <;> rfl
  rw [Linux.establishRelay, outcome_resolved, outcome_bind, hnamed, linux_requestRelay h,
    namedRelay]
  split_ifs <;> simp_all

/-- Both engines send datagrams to the relay that the reply names exactly when the proxy's name does
not resolve, the reply is a refusal, or it carries an IPv4 address other than 0.0.0.0. -/
theorem relay_address_alike_iff (h : Replies b reply) (socks5Ip : Ip) :
    ((outcome StackBuffer.answer (Windows.establishRelay socks5Ip) b).1 =
        (outcome StackBuffer.answer (Linux.establishRelay socks5Ip) b).1 ∧
      (outcome StackBuffer.answer (Linux.establishRelay socks5Ip) b).1 =
        if socks5Ip = 0 then none else namedRelay socks5Ip reply) ↔
      socks5Ip = 0 ∨ accepts reply = false ∨ (reply.getD 3 0 = 1 ∧ relayIp reply ≠ 0) := by
  rw [windows_establishRelay h, linux_establishRelay h, and_iff_left rfl, namedRelay]
  by_cases hip : socks5Ip = 0
  · simp only [hip, if_true, true_or]
  · rw [if_neg hip, if_neg hip, or_iff_right hip]
    cases accepts reply with
    | false => simp
    | true =>
      by_cases htype : reply.getD 3 0 = 1
      · by_cases hrelay : relayIp reply = 0
        · have hkept : (0 : Ip) = socks5Ip ↔ False := iff_false_intro (Ne.symm hip)
          simp only [htype, hrelay, if_true, decide_true, Bool.and_self, Option.some_inj,
            Prod.mk.injEq, and_true, hkept, ne_eq, not_true, and_false, or_false, reduceCtorEq]
        · simp only [htype, if_false, if_true, decide_true, Bool.and_self, ne_eq, hrelay,
            not_false_eq_true, and_self, or_true]
      · simp only [htype, if_true, decide_false, Bool.and_false, false_and, or_false, reduceCtorEq,
          Bool.false_eq_true, if_false]

/-- A reply with the address 192.0.2.7 and the port 4000. -/
theorem relay_address_alike_ipv4 :
    (outcome StackBuffer.answer (Windows.establishRelay loopback)
        (.start [true] [some [5, 0, 0, 1, 192, 0, 2, 7, 15, 160]])).1 =
      (outcome StackBuffer.answer (Linux.establishRelay loopback)
        (.start [true] [some [5, 0, 0, 1, 192, 0, 2, 7, 15, 160]])).1 :=
  ((relay_address_alike_iff ⟨rfl, rfl, by decide⟩ loopback).mpr (by decide)).1

/-- Of the name `abc` in a reply the engine for Windows makes an address, and it keeps 0.0.0.0. -/
theorem relay_address_differs :
    ((outcome StackBuffer.answer (Windows.establishRelay loopback)
        (.start [true] [some [5, 0, 0, 3, 3, 97, 98, 99, 15, 160]])).1 =
          some (ipv4 3 97 98 99, 4000) ∧
      (outcome StackBuffer.answer (Linux.establishRelay loopback)
        (.start [true] [some [5, 0, 0, 3, 3, 97, 98, 99, 15, 160]])).1 = none) ∧
    (outcome StackBuffer.answer (Windows.establishRelay loopback)
        (.start [true] [some [5, 0, 0, 1, 0, 0, 0, 0, 15, 160]])).1 = some (0, 4000) ∧
      (outcome StackBuffer.answer (Linux.establishRelay loopback)
        (.start [true] [some [5, 0, 0, 1, 0, 0, 0, 0, 15, 160]])).1 = some (loopback, 4000) := by
  decide +kernel

end ProxyTun.Relays
