import ProxyTun.Core.CString
import ProxyTun.Library.Resumption
import ProxyTun.Tunnel.Handshake

/-!
# The buffer of the UDP association

`socks5_udp_associate` builds its requests and reads the replies in one buffer on the stack, of 512
bytes. `socks5_connect` does the same in a buffer of `SOCKS5_BUFFER_SIZE`, which is 1024.
-/
namespace ProxyTun.Linux
open Library Code

def associateBufferSize : ℕ := 512

/-- What `socks5_udp_associate` does with its buffer. -/
inductive BufferOp where
  /-- An assignment, `memcpy` or `memset`. -/
  | store (index : ℕ) (data : List Byte)
  | load (index : ℕ)
  | send (count : ℕ)
  | recv (size : ℕ)

/-- A `send` tells whether all was sent, a `recv` how much it received, or -1. -/
abbrev BufferOp.Result : BufferOp → Type
  | .store _ _ => Unit
  | .load _ => Byte
  | .send _ => Bool
  | .recv _ => ℤ

/-- The buffer with the indices that were written so far, and what the socket will do. A `send`
fails after the last result, a `recv` after the last reply. -/
structure StackBuffer where
  bytes : ℕ → Byte
  written : List ℕ
  sends : List Bool
  replies : List (Option (List Byte))

/-- The credentials as `ProxyBridge_SetProxyConfig` keeps them. -/
def storedCredentials (username password : Option CStr) : Credentials where
  username := (username.getD []).take 255
  password := (password.getD []).take 255
  username_length := List.length_take_le _ _
  password_length := List.length_take_le _ _

namespace StackBuffer

def start (sends : List Bool) (replies : List (Option (List Byte))) : StackBuffer :=
  ⟨fun _ => 0, [], sends, replies⟩

def store (index : ℕ) (data : List Byte) (b : StackBuffer) : StackBuffer :=
  { b with
    bytes := fun i =>
      if index ≤ i ∧ i < index + data.length then data.getD (i - index) 0 else b.bytes i
    written := b.written ++ (List.range data.length).map (index + ·) }

/-- `recv` of at most `size` bytes to the start of the buffer. -/
def receive (size : ℕ) (b : StackBuffer) : ℤ × StackBuffer :=
  match b.replies.headD none with
  | some reply =>
    ((reply.take size).length, { b.store 0 (reply.take size) with replies := b.replies.tail })
  | none => (-1, { b with replies := b.replies.tail })

def answer : (op : BufferOp) → StackBuffer → op.Result × StackBuffer
  | .store index data, b => ((), b.store index data)
  | .load index, b => (b.bytes index, b)
  | .send _, b => (b.sends.headD false, { b with sends := b.sends.tail })
  | .recv size, b => b.receive size

/-- Every index that was written lies in the buffer. -/
def Within (b : StackBuffer) : Prop := ∀ i ∈ b.written, i < associateBufferSize

instance (b : StackBuffer) : Decidable b.Within :=
  inferInstanceAs (Decidable (∀ i ∈ b.written, i < associateBufferSize))

theorem within_store (index : ℕ) (data : List Byte) (b : StackBuffer) :
    (b.store index data).Within ↔
      b.Within ∧ (data ≠ [] → index + data.length ≤ associateBufferSize) := by
  have hspan : (∀ i ∈ (List.range data.length).map (index + ·), i < associateBufferSize) ↔
      (data ≠ [] → index + data.length ≤ associateBufferSize) := by
    simp only [List.forall_mem_map, List.mem_range, ← List.length_pos_iff]
    constructor
    · intro h hpos
      have hlast := h (data.length - 1) (by omega)
      omega
    · intro h i hi
      have hend := h (by omega)
      omega
  simp only [Within, store, List.forall_mem_append, hspan]

end StackBuffer

abbrev Associate (α : Type) := ExceptT Unit (Code BufferOp BufferOp.Result) α

namespace Associate

def store (index : ℕ) (data : List Byte) : Associate Unit := issue Unit (BufferOp.store index data)

def load (index : ℕ) : Associate Byte := issue Unit (BufferOp.load index)

def recv (size : ℕ) : Associate ℤ := issue Unit (BufferOp.recv size)

def check (ok : Bool) : Associate Unit := require () ok

def onlyIf (condition : Bool) (c : Associate Unit) : Associate Unit :=
  if condition then c else pure ()

def sendAll (count : ℕ) : Associate Unit := do
  let sent ← issue Unit (BufferOp.send count)
  check sent

end Associate

open Associate

def selectMethod (creds : Credentials) : Associate Byte := do
  store 0 [5]
  store 1 [if creds.useAuth then 2 else 1]
  store 2 [0]
  onlyIf creds.useAuth (store 3 [2])
  sendAll (if creds.useAuth then 4 else 3)
  let len ← recv 2
  let version ← load 0
  check (len = 2 && version = 5)
  load 1

/-- The login with user name and password. -/
def login (creds : Credentials) : Associate Unit := do
  store 0 [1]
  store 1 [BitVec.ofNat 8 creds.username.length]
  store 2 (bytesOf creds.username)
  store (2 + creds.username.length) [BitVec.ofNat 8 creds.password.length]
  store (3 + creds.username.length) (bytesOf creds.password)
  sendAll (3 + creds.username.length + creds.password.length)
  let len ← recv 2
  let version ← load 0
  let status ← load 1
  check (len = 2 && version = 1 && status = 0)

/-- The request for the association, and the relay's address in the reply. -/
def requestRelay : Associate (Ip × Port) := do
  store 0 [5]
  store 1 [3]
  store 2 [0]
  store 3 [1]
  store 4 [0, 0, 0, 0]
  store 8 [0, 0]
  sendAll 10
  let len ← recv 512
  let version ← load 0
  let status ← load 1
  check (10 ≤ len && version = 5 && status = 0)
  let addressType ← load 3
  check (addressType = 1)
  let a ← load 4
  let b ← load 5
  let c ← load 6
  let d ← load 7
  let high ← load 8
  let low ← load 9
  pure (ipv4 a b c d, high ++ low)

/-- What follows the server's choice of a method. -/
def authenticate (creds : Credentials) (method : Byte) : Associate Unit :=
  if method = 2 && creds.useAuth then login creds else check (method = 0)

def socks5UdpAssociate (creds : Credentials) : Associate (Ip × Port) := do
  let method ← selectMethod creds
  authenticate creds method
  requestRelay

/-- The buffer after the call. -/
def bufferAfter (creds : Credentials) (sends : List Bool) (replies : List (Option (List Byte))) :
    StackBuffer :=
  (outcome StackBuffer.answer (socks5UdpAssociate creds) (.start sends replies)).2

/-- The server gets the methods on offer and selects the login. -/
def SelectsLogin (creds : Credentials) (sends : List Bool) (replies : List (Option (List Byte))) :
    Prop :=
  creds.useAuth = true ∧ sends.head? = some true ∧
    ∃ reply, replies.head? = some (some reply) ∧ reply.take 2 = [5, 2]

/-- The operation stays inside the buffer. -/
def BufferOp.Fits : BufferOp → Prop
  | .store index data => index + data.length ≤ associateBufferSize
  | .load _ => True
  | .send _ => True
  | .recv size => size ≤ associateBufferSize

theorem StackBuffer.within_receive {size : ℕ} (h : size ≤ associateBufferSize) (b : StackBuffer) :
    (b.receive size).2.Within ↔ b.Within := by
  unfold receive
  cases b.replies.headD none with
  | none => rfl
  | some reply =>
    have hroom : 0 + (reply.take size).length ≤ associateBufferSize :=
      (Nat.zero_add _).trans_le ((List.length_take_le _ _).trans h)
    exact (within_store 0 (reply.take size) b).trans (and_iff_left fun _ => hroom)

theorem StackBuffer.receive_two_iff (b : StackBuffer) {x y : Byte} :
    (b.receive 2).1 = 2 ∧ (b.receive 2).2.bytes 0 = x ∧ (b.receive 2).2.bytes 1 = y ↔
      ∃ reply, b.replies.headD none = some reply ∧ reply.take 2 = [x, y] := by
  unfold receive
  cases b.replies.headD none with
  | none => simp
  | some reply =>
    match reply with
    | [] => simp
    | [_] => simp
    | _ :: _ :: _ => simp [store]

theorem within_answer (op : BufferOp) (b : StackBuffer) (h : op.Fits) :
    (StackBuffer.answer op b).2.Within ↔ b.Within := by
  cases op with
  | store index data =>
    exact (StackBuffer.within_store index data b).trans (and_iff_left fun _ => h)
  | load index => rfl
  | send count => rfl
  | recv size => exact StackBuffer.within_receive h b

section Fits

variable {α β : Type}

/-- Code that stays inside the buffer. -/
abbrev Fits (c : Associate α) : Prop := Issues BufferOp.Fits c

theorem within_of_fits {c : Associate α} (h : Fits c) (b : StackBuffer) :
    (outcome StackBuffer.answer c b).2.Within ↔ b.Within :=
  eval_iff StackBuffer.answer (fun op s hop => within_answer op s hop) h b

theorem fits_store {index : ℕ} {data : List Byte} (h : index + data.length ≤ associateBufferSize) :
    Fits (store index data) := issues_issue h

theorem fits_load (index : ℕ) : Fits (load index) := issues_issue trivial

theorem fits_recv {size : ℕ} (h : size ≤ associateBufferSize) : Fits (recv size) := issues_issue h

theorem fits_check (ok : Bool) : Fits (check ok) := by
  cases ok
  · exact issues_throw _ ()
  · exact issues_pure _ ()

theorem fits_sendAll (count : ℕ) : Fits (sendAll count) :=
  (issues_issue trivial).bind fits_check

theorem fits_selectMethod (creds : Credentials) : Fits (selectMethod creds) := by
  refine (fits_store (by decide)).bind fun _ => ?_
  refine (fits_store (by cases creds.useAuth <;> decide)).bind fun _ => ?_
  refine (fits_store (by decide)).bind fun _ => ?_
  have hoffer : Fits (onlyIf creds.useAuth (store 3 [2])) := by
    cases creds.useAuth
    · exact issues_pure _ ()
    · exact fits_store (by decide)
  refine hoffer.bind fun _ => (fits_sendAll _).bind fun _ => ?_
  refine (fits_recv (by decide)).bind fun _ => (fits_load 0).bind fun _ => ?_
  exact (fits_check _).bind fun _ => fits_load 1

theorem fits_requestRelay : Fits requestRelay := by
  refine (fits_store (by decide)).bind fun _ => (fits_store (by decide)).bind fun _ => ?_
  refine (fits_store (by decide)).bind fun _ => (fits_store (by decide)).bind fun _ => ?_
  refine (fits_store (by decide)).bind fun _ => (fits_store (by decide)).bind fun _ => ?_
  refine (fits_sendAll 10).bind fun _ => (fits_recv (by decide)).bind fun _ => ?_
  refine (fits_load 0).bind fun _ => (fits_load 1).bind fun _ => (fits_check _).bind fun _ => ?_
  refine (fits_load 3).bind fun _ => (fits_check _).bind fun _ => (fits_load 4).bind fun _ => ?_
  refine (fits_load 5).bind fun _ => (fits_load 6).bind fun _ => (fits_load 7).bind fun _ => ?_
  exact (fits_load 8).bind fun _ => (fits_load 9).bind fun _ => issues_pure _ _

end Fits

section Outcomes

variable {α : Type}

theorem outcome_store_bind (index : ℕ) (data : List Byte) (f : Unit → Associate α)
    (b : StackBuffer) :
    outcome StackBuffer.answer (store index data >>= f) b =
      outcome StackBuffer.answer (f ()) (b.store index data) :=
  outcome_issue_bind StackBuffer.answer (BufferOp.store index data) f b

theorem outcome_load_bind (index : ℕ) (f : Byte → Associate α) (b : StackBuffer) :
    outcome StackBuffer.answer (load index >>= f) b =
      outcome StackBuffer.answer (f (b.bytes index)) b :=
  outcome_issue_bind StackBuffer.answer (BufferOp.load index) f b

theorem outcome_recv_bind (size : ℕ) (f : ℤ → Associate α) (b : StackBuffer) :
    outcome StackBuffer.answer (recv size >>= f) b =
      outcome StackBuffer.answer (f (b.receive size).1) (b.receive size).2 :=
  outcome_issue_bind StackBuffer.answer (BufferOp.recv size) f b

theorem outcome_checked (ok : Bool) (b : StackBuffer) :
    outcome StackBuffer.answer (check ok) b = (if ok then some () else none, b) := by
  cases ok <;> rfl

theorem outcome_checked_bind (ok : Bool) (f : Unit → Associate α) (b : StackBuffer) :
    outcome StackBuffer.answer (check ok >>= f) b =
      if ok then outcome StackBuffer.answer (f ()) b else (none, b) := by
  rw [outcome_bind]
  cases ok <;> rfl

theorem outcome_onlyIf_bind (condition : Bool) (index : ℕ) (data : List Byte)
    (f : Unit → Associate α) (b : StackBuffer) :
    outcome StackBuffer.answer (onlyIf condition (store index data) >>= f) b =
      outcome StackBuffer.answer (f ()) (if condition then b.store index data else b) := by
  rw [outcome_bind]
  cases condition <;> rfl

theorem outcome_sendAll_bind (count : ℕ) (f : Unit → Associate α) (b : StackBuffer) :
    outcome StackBuffer.answer (sendAll count >>= f) b =
      if b.sends.headD false then outcome StackBuffer.answer (f ()) { b with sends := b.sends.tail }
      else (none, { b with sends := b.sends.tail }) := by
  have hsend : outcome StackBuffer.answer (sendAll count) b =
      (if b.sends.headD false then some () else none, { b with sends := b.sends.tail }) := by
    rw [sendAll, outcome_issue_bind]
    exact outcome_checked (b.sends.headD false) _
  rw [outcome_bind, hsend]
  cases b.sends.headD false <;> rfl

theorem selectMethod_eq_some {creds : Credentials} {b : StackBuffer} {method : Byte} :
    (outcome StackBuffer.answer (selectMethod creds) b).1 = some method ↔
      b.sends.headD false = true ∧
        ∃ reply, b.replies.headD none = some reply ∧ reply.take 2 = [5, method] := by
  unfold selectMethod
  rw [outcome_store_bind, outcome_store_bind, outcome_store_bind, outcome_onlyIf_bind,
    outcome_sendAll_bind]
  set offered := if creds.useAuth = true then _ else _ with hoffered
  have hsends : offered.sends = b.sends := by rw [hoffered]; split <;> rfl
  have hreplies : offered.replies = b.replies := by rw [hoffered]; split <;> rfl
  rw [hsends]
  cases b.sends.headD false with
  | false => simp
  | true =>
    simp only [if_true, true_and]
    rw [outcome_recv_bind, outcome_load_bind, outcome_checked_bind, ← hreplies,
      ← StackBuffer.receive_two_iff { offered with sends := b.sends.tail }]
    split_ifs with hok
    · simp only [Bool.and_eq_true, decide_eq_true_eq] at hok
      simp only [hok, true_and]
      exact Option.some_inj
    · simp only [Bool.and_eq_true, decide_eq_true_eq] at hok
      exact iff_of_false (by simp) fun h => hok ⟨h.1, h.2.1⟩

end Outcomes

theorem within_login (creds : Credentials) (b : StackBuffer) :
    (outcome StackBuffer.answer (login creds) b).2.Within ↔
      b.Within ∧ creds.username.length + creds.password.length ≤ 509 := by
  have huser := creds.username_length
  have hpass := creds.password_length
  have hrest : Fits (do
      sendAll (3 + creds.username.length + creds.password.length)
      let len ← recv 2
      let version ← load 0
      let status ← load 1
      check (len = 2 && version = 1 && status = 0)) := by
    refine (fits_sendAll _).bind fun _ => (fits_recv (by decide)).bind fun _ => ?_
    exact (fits_load 0).bind fun _ => (fits_load 1).bind fun _ => fits_check _
  unfold login
  simp only [outcome_store_bind]
  rw [within_of_fits hrest]
  simp only [StackBuffer.within_store, associateBufferSize, bytesOf, List.length_map,
    List.length_singleton, ← List.length_pos_iff]
  constructor
  · rintro ⟨⟨⟨⟨⟨hb, -⟩, -⟩, -⟩, -⟩, hend⟩
    refine ⟨hb, ?_⟩
    by_contra hlong
    have hroom := hend (by omega)
    omega
  · rintro ⟨hb, hshort⟩
    exact ⟨⟨⟨⟨⟨hb, by omega⟩, by omega⟩, by omega⟩, by omega⟩, by omega⟩

theorem within_start (sends : List Bool) (replies : List (Option (List Byte))) :
    (StackBuffer.start sends replies).Within := fun _ h => by cases h

theorem selectsLogin_iff {creds : Credentials} {sends : List Bool}
    {replies : List (Option (List Byte))} :
    SelectsLogin creds sends replies ↔
      creds.useAuth = true ∧
        (outcome StackBuffer.answer (selectMethod creds) (.start sends replies)).1 = some 2 := by
  rw [selectMethod_eq_some]
  unfold SelectsLogin StackBuffer.start
  cases sends <;> cases replies <;> simp

/-- `socks5_udp_associate` writes behind its buffer exactly when the server selects the login and
user name and password have more than 509 characters together. -/
theorem associate_within_iff (creds : Credentials) (sends : List Bool)
    (replies : List (Option (List Byte))) :
    (bufferAfter creds sends replies).Within ↔
      ¬ (SelectsLogin creds sends replies ∧
        509 < creds.username.length + creds.password.length) := by
  have hoffered := (within_of_fits (fits_selectMethod creds) (.start sends replies)).mpr
    (within_start sends replies)
  rw [selectsLogin_iff, bufferAfter, socks5UdpAssociate, outcome_bind]
  cases hmethod : (outcome StackBuffer.answer (selectMethod creds) (.start sends replies)).1 with
  | none => exact iff_of_true hoffered (by simp)
  | some method =>
    rw [Option.elim_some, outcome_bind]
    have hrest (result : Option Unit × StackBuffer) :
        (result.1.elim (none, result.2) fun _ => outcome StackBuffer.answer requestRelay
          result.2).2.Within ↔ result.2.Within := by
      cases result.1 with
      | none => rfl
      | some u => exact within_of_fits fits_requestRelay result.2
    rw [hrest, authenticate]
    by_cases hlogin : (method = 2 && creds.useAuth) = true
    · rw [if_pos hlogin, within_login]
      simp only [Bool.and_eq_true, decide_eq_true_eq] at hlogin
      simp [hoffered, hlogin]
    · rw [if_neg hlogin, within_of_fits (fits_check _)]
      simp only [Bool.and_eq_true, decide_eq_true_eq, not_and] at hlogin
      refine iff_of_true hoffered ?_
      rintro ⟨⟨hauth, hselected⟩, -⟩
      exact hlogin (Option.some.inj hselected) hauth

/-- User name and password of 255 characters each. -/
def longestCredentials : Credentials :=
  storedCredentials (some (List.replicate 300 'u')) (some (List.replicate 255 'p'))

/-- The last character of the password is written to index 512. -/
theorem associate_overflow :
    512 ∈ (bufferAfter longestCredentials [true, true] [some [5, 2]]).written ∧
      ¬ (bufferAfter longestCredentials [true, true] [some [5, 2]]).Within := by
  decide +kernel

end ProxyTun.Linux
