import Mathlib.Algebra.Group.Nat.Defs
import ProxyTun.Library.Buffer

/-!
# Packed messages

A datagram holds messages one behind the other, each with its size in a header and with padding
behind it. Code that receives datagrams into a buffer walks over the messages with a count of what
is left of the datagram. The rest of the buffer has what earlier datagrams left there.
-/
namespace ProxyTun.Library

/-- How messages lie in a buffer: the length of a header, the size that a header gives, and the
distance to the next message. -/
structure MessageLayout (α : Type*) where
  header : ℕ
  header_pos : 0 < header
  size : List α → ℕ
  padded : ℕ → ℕ

namespace MessageLayout

variable {α β : Type*} {w : ℕ} (L : MessageLayout α) (visit : List α → Option (Option β))

/-- What the first message with something to tell tells, of those at the start of a buffer. There is
no outcome if the buffer is read outside, or if the walk goes on for too long. -/
def walk : ℕ → List α → BitVec w → Option (Option β)
  | 0, _, _ => none
  | fuel + 1, buffer, left =>
    if left.toNat < L.header then some none
    else if buffer.length < L.header then none
    else if L.size buffer < L.header ∨ left.toNat < L.size buffer then some none
    else
      (visit buffer).bind fun
        | some b => some (some b)
        | none => walk fuel (buffer.drop (L.padded (L.size buffer)))
            (left - BitVec.ofNat w (L.padded (L.size buffer)))

/-- Datagrams are received into a buffer until a message has something to tell. A datagram is cut
where the buffer ends, and an empty one ends it all. -/
def receive (w : ℕ) : List (List α) → List α → Option (Option β)
  | [], _ => some none
  | datagram :: datagrams, buffer =>
    if datagram = [] then some none
    else
      (L.walk visit (buffer.length + 1)
          (Buffer.overwrite buffer 0 (datagram.take buffer.length))
          (BitVec.ofNat w (datagram.take buffer.length).length)).bind fun
        | some b => some (some b)
        | none => receive w datagrams (Buffer.overwrite buffer 0 (datagram.take buffer.length))

/-- A message with its padding. -/
structure IsMessage (message : List α) : Prop where
  exists_size : ∃ n, L.header ≤ n ∧ n ≤ message.length ∧ L.padded n = message.length ∧
    ∀ rest, L.size (message ++ rest) = n

def pack {μ : Type*} (encode : μ → List α) (messages : List μ) : List α := messages.flatMap encode

variable {L visit} {μ : Type*} {encode : μ → List α} {tells : μ → Option β} {messages : List μ}

theorem length_le_pack (h : ∀ m ∈ messages, L.IsMessage (encode m)) :
    messages.length ≤ (pack encode messages).length := by
  induction messages with
  | nil => exact Nat.zero_le _
  | cons m messages ih =>
    obtain ⟨hm, hrest⟩ := List.forall_mem_cons.mp h
    obtain ⟨n, hheader, hn, -, -⟩ := hm.exists_size
    have hpos := L.header_pos
    have hlength := ih hrest
    change messages.length + 1 ≤ (encode m ++ pack encode messages).length
    rw [List.length_append]
    omega

theorem walk_append {m : List α} {verdict : Option β} (hm : L.IsMessage m)
    (hvisit : ∀ rest, visit (m ++ rest) = some verdict) (fuel : ℕ) (rest behind : List α)
    (hcount : m.length + rest.length < 2 ^ w) :
    L.walk visit (fuel + 1) (m ++ (rest ++ behind)) (BitVec.ofNat w (m.length + rest.length)) =
      verdict.elim (L.walk visit fuel (rest ++ behind) (BitVec.ofNat w rest.length))
        fun b => some (some b) := by
  obtain ⟨n, hheader, hn, hpadded, hsize⟩ := hm.exists_size
  have hcounted : ∀ k < 2 ^ w, (BitVec.ofNat w k).toNat = k := fun k hk => by
    rw [BitVec.toNat_ofNat, Nat.mod_eq_of_lt hk]
  have hleft := hcounted _ hcount
  have hbuffer : ¬ (m ++ (rest ++ behind)).length < L.header := by
    rw [List.length_append]
    omega
  have hfits : ¬ (n < L.header ∨ m.length + rest.length < n) := by omega
  have hnext : BitVec.ofNat w (m.length + rest.length) - BitVec.ofNat w m.length =
      BitVec.ofNat w rest.length := by
    apply BitVec.eq_of_toNat_eq
    rw [BitVec.toNat_sub_of_le, hleft, hcounted m.length (by omega),
      hcounted rest.length (by omega), Nat.add_sub_cancel_left]
    rw [BitVec.le_def, hleft, hcounted m.length (by omega)]
    omega
  rw [walk, hleft, if_neg (by omega), if_neg hbuffer, hsize, if_neg hfits, hvisit,
    Option.bind_some, hpadded, hnext, List.drop_left]
  cases verdict <;> rfl

/-- Over packed messages, the walk finds what the first of them tells that has something to tell. -/
theorem walk_pack (h : ∀ m ∈ messages, L.IsMessage (encode m))
    (hvisit : ∀ m ∈ messages, ∀ rest, visit (encode m ++ rest) = some (tells m)) {fuel : ℕ}
    (hfuel : messages.length < fuel) (behind : List α)
    (hcount : (pack encode messages).length < 2 ^ w) :
    L.walk visit fuel (pack encode messages ++ behind)
        (BitVec.ofNat w (pack encode messages).length) =
      some (messages.findSome? tells) := by
  induction messages generalizing fuel with
  | nil =>
    obtain ⟨fuel, rfl⟩ := Nat.exists_eq_add_of_lt hfuel
    have hnone : (BitVec.ofNat w (pack encode []).length).toNat < L.header := by
      have hpos := L.header_pos
      simpa [pack] using hpos
    rw [walk, if_pos hnone]
    rfl
  | cons m messages ih =>
    obtain ⟨hm, hrest⟩ := List.forall_mem_cons.mp h
    obtain ⟨hvisitm, hvisits⟩ := List.forall_mem_cons.mp hvisit
    have hpack : pack encode (m :: messages) = encode m ++ pack encode messages :=
      List.flatMap_cons
    rw [List.length_cons] at hfuel
    obtain ⟨fuel, rfl⟩ : ∃ n, fuel = n + 1 := ⟨fuel - 1, by omega⟩
    rw [hpack, List.length_append] at hcount ⊢
    rw [List.append_assoc, walk_append hm hvisitm fuel (pack encode messages) behind hcount,
      List.findSome?_cons]
    cases tells m with
    | some b => rfl
    | none => exact ih hrest hvisits (by omega) (by omega)

/-- Whatever the buffer held before, and however the messages are put into datagrams, what is found
is what the first message tells that has something to tell. -/
theorem receive_pack {groups : List (List μ)} {buffer : List α}
    (h : ∀ g ∈ groups, ∀ m ∈ g, L.IsMessage (encode m))
    (hvisit : ∀ g ∈ groups, ∀ m ∈ g, ∀ rest, visit (encode m ++ rest) = some (tells m))
    (hne : ∀ g ∈ groups, g ≠ []) (hfits : ∀ g ∈ groups, (pack encode g).length ≤ buffer.length)
    (hcount : buffer.length < 2 ^ w) :
    L.receive visit w (groups.map (pack encode)) buffer =
      some (groups.flatten.findSome? tells) := by
  induction groups generalizing buffer with
  | nil => rfl
  | cons g groups ih =>
    obtain ⟨hg, hrest⟩ := List.forall_mem_cons.mp h
    obtain ⟨hvisitg, hvisits⟩ := List.forall_mem_cons.mp hvisit
    obtain ⟨hgne, hnes⟩ := List.forall_mem_cons.mp hne
    obtain ⟨hgfits, hfit⟩ := List.forall_mem_cons.mp hfits
    have hlength := length_le_pack hg
    have hcons : 0 < g.length := List.length_pos_of_ne_nil hgne
    have hsome : pack encode g ≠ [] := by
      apply List.ne_nil_of_length_pos
      omega
    have hover : Buffer.overwrite buffer 0 (pack encode g) =
        pack encode g ++ buffer.drop (pack encode g).length := by
      simp [Buffer.overwrite]
    have hkept : (Buffer.overwrite buffer 0 (pack encode g)).length = buffer.length :=
      Buffer.length_overwrite (by omega)
    rw [List.map_cons, receive, if_neg hsome, List.take_of_length_le hgfits, hover,
      walk_pack hg hvisitg (by omega) _ (by omega), Option.bind_some, List.flatten_cons,
      List.findSome?_append, ← hover]
    cases g.findSome? tells with
    | some b => rfl
    | none => exact ih hrest hvisits hnes (by rwa [hkept]) (by rwa [hkept])

end MessageLayout

end ProxyTun.Library
