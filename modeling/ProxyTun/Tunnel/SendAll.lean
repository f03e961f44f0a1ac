import ProxyTun.Tunnel.Transfer

/-!
# The write loop `send_all`

One call of `send` may take fewer bytes than it is offered. `send_all` offers what is left until
nothing is, or until a call fails. Every offset it forms lies within the buffer, so neither its
`int` nor its `size_t` wraps.
-/
namespace ProxyTun.SendAll

/-- `n == SOCKET_ERROR` on Windows and `n < 0` on Linux. -/
def isError : Platform → ℤ → Bool
  | .windows, n => n = -1
  | .linux, n => n < 0

/-- What `send` returns: an error, or how many of the bytes on offer it took. -/
structure Result (platform : Platform) (offered : ℕ) where
  n : ℤ
  errorOrProgress : isError platform n = true ∨ 1 ≤ n ∧ n ≤ offered

/-- The results of the calls of `send`, by the number of the call and the bytes on offer. -/
abbrev Socket (platform : Platform) := ℕ → (offered : List Byte) → Result platform offered.length

/-- A call of `send` that was made, and its result. -/
structure Call where
  offered : List Byte
  n : ℤ
  deriving DecidableEq, Repr

def Call.taken (platform : Platform) (c : Call) : List Byte :=
  if isError platform c.n then [] else c.offered.take c.n.toNat

/-- The value `send_all` returns and the calls it made. -/
structure Outcome where
  returned : ℤ
  calls : List Call
  deriving DecidableEq, Repr

variable {platform : Platform}

/-- The `while` loop of `send_all` from a value of `sent`, before the given call of `send`. -/
def loop (send : Socket platform) (buf : List Byte) (sent call : ℕ) : Outcome :=
  if sent < buf.length then
    let n := (send call (buf.drop sent)).n
    if isError platform n then ⟨-1, [⟨buf.drop sent, n⟩]⟩
    else
      let rest := loop send buf (sent + n.toNat) (call + 1)
      ⟨rest.returned, ⟨buf.drop sent, n⟩ :: rest.calls⟩
  else ⟨sent, []⟩
termination_by buf.length - sent
decreasing_by
  rcases (send call (buf.drop sent)).errorOrProgress with herror | hprogress
  · contradiction
  · omega

def sendAll (send : Socket platform) (buf : List Byte) : Outcome := loop send buf 0 0

/-- The bytes that some calls handed over, one call after the other. -/
def handed (platform : Platform) (calls : List Call) : List Byte :=
  calls.flatMap (Call.taken platform)

/-- How the loop ends on the bytes that are left: with an error and some of them still there, or
with all of them handed over. -/
structure Ends (platform : Platform) (left : List Byte) (total : ℕ) (o : Outcome) : Prop where
  isPrefix : handed platform o.calls <+: left
  offers : ∀ before c behind, o.calls = before ++ c :: behind →
    c.offered = left.drop (handed platform before).length
  few : o.calls.length ≤ left.length
  ended : (o.returned = -1 ∧ (∃ c ∈ o.calls, isError platform c.n = true) ∧
      (handed platform o.calls).length < left.length) ∨
    (o.returned = total ∧ (∀ c ∈ o.calls, isError platform c.n = false) ∧
      handed platform o.calls = left)

variable {left : List Byte} {total : ℕ}

theorem handed_cons (c : Call) (calls : List Call) :
    handed platform (c :: calls) = c.taken platform ++ handed platform calls :=
  List.flatMap_cons

theorem ends_nil (total : ℕ) : Ends platform [] total ⟨total, []⟩ where
  isPrefix := List.nil_prefix
  offers := by
    intro before c behind h
    simp at h
  few := le_rfl
  ended := Or.inr ⟨rfl, by simp, rfl⟩

/-- A failed call hands over nothing. -/
theorem ends_error {n : ℤ} (hn : isError platform n = true) (hleft : left ≠ []) (total : ℕ) :
    Ends platform left total ⟨-1, [⟨left, n⟩]⟩ := by
  have hnone : handed platform [⟨left, n⟩] = [] := by
    simp [handed, Call.taken, hn]
  have hpos : 0 < left.length := List.length_pos_iff.mpr hleft
  constructor
  · rw [hnone]
    exact List.nil_prefix
  · intro before c behind h
    obtain ⟨rfl, rfl, -⟩ : before = [] ∧ c = ⟨left, n⟩ ∧ behind = [] := by
      cases before with
      | nil => simpa [eq_comm] using h
      | cons d before => simp at h
    rfl
  · exact hpos
  · refine Or.inl ⟨rfl, ⟨_, List.mem_singleton_self _, hn⟩, ?_⟩
    rw [hnone]
    exact hpos

/-- A call that makes progress leaves the rest of the bytes to the calls after it. -/
theorem Ends.cons {n : ℤ} {rest : Outcome} (hn : isError platform n = false) (hpos : 1 ≤ n)
    (hle : n ≤ left.length) (h : Ends platform (left.drop n.toNat) total rest) :
    Ends platform left total ⟨rest.returned, ⟨left, n⟩ :: rest.calls⟩ := by
  have htaken : Call.taken platform ⟨left, n⟩ = left.take n.toNat := by
    simp [Call.taken, hn]
  have hlength : (left.take n.toNat).length = n.toNat := by
    rw [List.length_take]
    omega
  have hrest : (left.drop n.toNat).length = left.length - n.toNat := List.length_drop
  constructor
  · rw [handed_cons, htaken]
    calc left.take n.toNat ++ handed platform rest.calls
        <+: left.take n.toNat ++ left.drop n.toNat :=
          (List.prefix_append_right_inj _).mpr h.isPrefix
      _ = left := List.take_append_drop _ _
  · intro before c behind hcalls
    cases before with
    | nil =>
      rw [List.nil_append, List.cons.injEq] at hcalls
      rw [← hcalls.1]
      rfl
    | cons first before =>
      rw [List.cons_append, List.cons.injEq] at hcalls
      rw [← hcalls.1, handed_cons, htaken, List.length_append, hlength, ← List.drop_drop]
      exact h.offers before c behind hcalls.2
  · have hfew := h.few
    rw [List.length_cons]
    omega
  · rw [handed_cons, htaken]
    rcases h.ended with ⟨hreturned, ⟨c, hc, hfailed⟩, hshort⟩ | ⟨hreturned, hnone, hall⟩
    · refine Or.inl ⟨hreturned, ⟨c, List.mem_cons_of_mem _ hc, hfailed⟩, ?_⟩
      rw [List.length_append]
      omega
    · refine Or.inr ⟨hreturned, List.forall_mem_cons.mpr ⟨hn, hnone⟩, ?_⟩
      rw [hall, List.take_append_drop]

theorem loop_ends (send : Socket platform) (buf : List Byte) (sent call : ℕ)
    (hsent : sent ≤ buf.length) :
    Ends platform (buf.drop sent) buf.length (loop send buf sent call) := by
  induction sent, call using @loop.induct platform send buf with
  | case1 sent call hlt n herror =>
    rw [loop, if_pos hlt]
    simp only
    rw [if_pos herror]
    exact ends_error herror (by simpa using hlt) _
  | case2 sent call hlt n hprogress ih =>
    have hn : isError platform n = false := Bool.eq_false_iff.mpr hprogress
    obtain ⟨hpos, hle⟩ : 1 ≤ n ∧ n ≤ (buf.drop sent).length :=
      (send call (buf.drop sent)).errorOrProgress.resolve_left hprogress
    rw [loop, if_pos hlt]
    simp only
    rw [if_neg hprogress]
    apply Ends.cons hn hpos hle
    rw [List.drop_drop]
    apply ih
    rw [List.length_drop] at hle
    omega
  | case3 sent call hge =>
    obtain rfl : sent = buf.length := by omega
    rw [loop, if_neg hge, List.drop_length]
    exact ends_nil _

theorem sendAll_ends (send : Socket platform) (buf : List Byte) :
    Ends platform buf buf.length (sendAll send buf) :=
  loop_ends send buf 0 0 (Nat.zero_le _)

theorem isError_neg_one (platform : Platform) : isError platform (-1) = true := by
  cases platform <;> rfl

theorem isError_natCast (platform : Platform) (n : ℕ) : isError platform n = false := by
  cases platform with
  | windows => simp [isError]
  | linux => simp [isError]

/-- How a transfer loop sees `send_all` go: its callers compare what it returns as it compares
what `send` returns. -/
def Outcome.attempt (platform : Platform) (o : Outcome) : Attempt :=
  if isError platform o.returned then .sendFails (handed platform o.calls).length else .moves

end ProxyTun.SendAll
