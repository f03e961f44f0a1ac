import ProxyTun.Library.DeferredMatch
import ProxyTun.Library.Transition

/-!
# A replica that is loaded anew

A replica takes messages in the order in which they are sent. A change of the source sends a message
that clears the replica, and the answer to it lets the items of the source be sent, one by one.
Changes may overlap, so that the source is sent more than once, and several times at once.
-/
namespace ProxyTun.Library
open Transition

/-- The items of the source, what the replica has of them, the messages under way, each of which
clears the replica or brings an item, and the answers under way. -/
structure Replica (β α : Type*) where
  source : List β
  items : List α
  channel : List (Option β)
  waiting : ℕ
  /-- What is left to send, for each time that the source is sent. -/
  sending : List (List β)

inductive ReplicaLabel (β : Type*) where
  | change (source : List β)
  /-- The replica starts anew, and the source is to be sent. -/
  | restart
  /-- The source is to be sent once more. -/
  | again
  | deliver
  /-- An answer arrives. -/
  | reload
  /-- The next item is sent. -/
  | send (i : ℕ)

namespace ReplicaLabel

/-- The step goes on with what is under way. -/
def isDelivery {β : Type*} : ReplicaLabel β → Bool
  | .deliver | .reload => true
  | .change _ | .restart | .again | .send _ => false

/-- The step lets the source be sent. -/
def isChange {β : Type*} : ReplicaLabel β → Bool
  | .change _ | .restart => true
  | .again | .deliver | .reload | .send _ => false

def isSend {β : Type*} : ReplicaLabel β → Bool
  | .send _ => true
  | .change _ | .restart | .again | .deliver | .reload => false

end ReplicaLabel

namespace Replica
variable {β α : Type*} (taken : β → Option α)

def receive (items : List α) : Option β → List α
  | none => []
  | some item => items ++ (taken item).toList

def step (s : Replica β α) : ReplicaLabel β → Option (Replica β α)
  | .change source => some { s with source := source, channel := s.channel ++ [none] }
  | .restart => some { s with items := [], channel := [], waiting := s.waiting + 1 }
  | .again => some { s with waiting := s.waiting + 1 }
  | .deliver =>
    match s.channel with
    | [] => none
    | none :: rest => some { s with items := [], channel := rest, waiting := s.waiting + 1 }
    | some item :: rest =>
      some { s with items := receive taken s.items (some item), channel := rest }
  | .reload =>
    if 0 < s.waiting then
      some { s with sending := s.sending ++ [s.source], waiting := s.waiting - 1 }
    else none
  | .send i =>
    match s.sending[i]? with
    | some (item :: rest) =>
      some { s with channel := s.channel ++ [some item], sending := s.sending.set i rest }
    | _ => none

/-- What the replica has when all messages under way have arrived. -/
def settled (s : Replica β α) : List α := s.channel.foldl (receive taken) s.items

def Silent (s : Replica β α) : Prop := ∀ rest ∈ s.sending, rest = []

/-- Nothing is under way. -/
structure Quiet (s : Replica β α) : Prop where
  channel : s.channel = []
  waiting : s.waiting = 0
  sending : s.Silent

/-- The replica comes to have items of the source, each behind those before it, and all of them once
the source is sent. -/
structure Consistent (s : Replica β α) : Prop where
  follows : Follows (s.source.filterMap taken) (s.settled taken)
  sending : ∀ rest ∈ s.sending, rest ≠ [] →
    ∃ passed, s.source = passed ++ rest ∧ passed.filterMap taken ⊆ s.settled taken
  sent : none ∈ s.channel ∨ 0 < s.waiting ∨ (∃ rest ∈ s.sending, rest ≠ []) ∨
    s.source.filterMap taken ⊆ s.settled taken

/-- How many deliveries are left when the source does not change. -/
def work (s : Replica β α) : ℕ :=
  s.channel.length + s.sending.flatten.length +
    s.channel.countP Option.isNone * (s.source.length + 1) + s.waiting * (s.source.length + 1)

/-- How many items are to be sent when the source does not change. -/
def unsent (s : Replica β α) : ℕ :=
  s.sending.flatten.length + (s.channel.countP Option.isNone + s.waiting) * s.source.length

variable {taken} {s t : Replica β α} {label : ReplicaLabel β}

theorem send_eq_some {i : ℕ} (h : s.step taken (.send i) = some t) :
    ∃ item rest, s.sending[i]? = some (item :: rest) ∧
      t = { s with channel := s.channel ++ [some item], sending := s.sending.set i rest } := by
  rw [step] at h
  cases hget : s.sending[i]? with
  | none =>
    rw [hget] at h
    cases h
  | some left =>
    cases left with
    | nil =>
      rw [hget] at h
      cases h
    | cons item rest =>
      rw [hget] at h
      exact ⟨item, rest, rfl, (Option.some.inj h).symm⟩

/-- A change or a new start undoes whatever was done before, if nothing is being sent. -/
theorem consistent_of_change (hlabel : label.isChange = true) (hsilent : s.Silent)
    (h : s.step taken label = some t) : t.Consistent taken := by
  cases label with
  | change source =>
    obtain rfl := Option.some.inj h
    have hsettled : settled taken { s with source := source, channel := s.channel ++ [none] } =
        [] := by simp [settled, receive]
    refine ⟨?_, fun rest hmem hne => absurd (hsilent rest hmem) hne, .inl (by simp)⟩
    rw [hsettled]
    exact follows_nil _
  | restart =>
    obtain rfl := Option.some.inj h
    exact ⟨follows_nil _, fun rest hmem hne => absurd (hsilent rest hmem) hne,
      .inr (.inl (Nat.succ_pos s.waiting))⟩
  | again | deliver | reload | send _ => cases hlabel

theorem Consistent.deliver (hs : s.Consistent taken) (h : s.step taken .deliver = some t) :
    t.Consistent taken := by
  obtain ⟨source, items, channel, waiting, sending⟩ := s
  cases channel with
  | nil => cases h
  | cons message rest =>
    cases message with
    | none =>
      obtain rfl := Option.some.inj h
      exact ⟨hs.follows, hs.sending, .inr (.inl (Nat.succ_pos waiting))⟩
    | some item =>
      obtain rfl := Option.some.inj h
      refine ⟨hs.follows, hs.sending, hs.sent.imp_left fun hclear => ?_⟩
      exact (List.mem_cons.mp hclear).resolve_left (Option.some_ne_none item).symm

/-- What is sent comes behind the items before it, which were sent earlier. -/
theorem Consistent.send (hs : s.Consistent taken) {i : ℕ} (h : s.step taken (.send i) = some t) :
    t.Consistent taken := by
  obtain ⟨item, rest, hget, rfl⟩ := send_eq_some h
  obtain ⟨passed, hsource, hpassed⟩ :=
    hs.sending (item :: rest) (List.mem_of_getElem? hget) (List.cons_ne_nil item rest)
  have hsettled : settled taken
      { s with channel := s.channel ++ [some item], sending := s.sending.set i rest } =
        s.settled taken ++ (taken item).toList := by
    simp [settled, receive]
  have hgrows : s.settled taken ⊆ s.settled taken ++ (taken item).toList :=
    List.subset_append_left _ _
  have hreached : (passed ++ [item]).filterMap taken ⊆
      s.settled taken ++ (taken item).toList := by
    rw [List.filterMap_append]
    refine List.append_subset.mpr ⟨List.Subset.trans hpassed hgrows, ?_⟩
    cases hitem : taken item <;> simp [hitem]
  have hsource' : s.source = passed ++ [item] ++ rest := by rw [hsource]; simp
  refine ⟨?_, fun left hleft hne => ?_, ?_⟩
  · rw [hsettled]
    cases hitem : taken item with
    | none => simpa using hs.follows
    | some x =>
      have hitems : s.source.filterMap taken =
          passed.filterMap taken ++ x :: rest.filterMap taken := by
        rw [hsource, List.filterMap_append, List.filterMap_cons_some hitem]
      exact hs.follows.append hitems hpassed
  · rw [hsettled]
    rcases List.mem_or_eq_of_mem_set hleft with hold | rfl
    · obtain ⟨earlier, hsplit, hearlier⟩ := hs.sending left hold hne
      exact ⟨earlier, hsplit, List.Subset.trans hearlier hgrows⟩
    · exact ⟨passed ++ [item], hsource', hreached⟩
  · rw [hsettled]
    by_cases hrest : rest = []
    · refine .inr (.inr (.inr ?_))
      rw [hrest, List.append_nil] at hsource'
      change s.source.filterMap taken ⊆ _
      rw [hsource']
      exact hreached
    · obtain ⟨hi, -⟩ := List.getElem?_eq_some_iff.mp hget
      exact .inr (.inr (.inl ⟨rest, List.mem_set hi rest, hrest⟩))

theorem Consistent.step (hs : s.Consistent taken) (hsilent : label.isChange = true → s.Silent)
    (h : s.step taken label = some t) : t.Consistent taken := by
  cases label with
  | change _ | restart => exact consistent_of_change rfl (hsilent rfl) h
  | again =>
    obtain rfl := Option.some.inj h
    exact ⟨hs.follows, hs.sending, .inr (.inl (Nat.succ_pos s.waiting))⟩
  | deliver => exact hs.deliver h
  | reload =>
    obtain ⟨-, h⟩ := Option.ite_none_right_eq_some.mp h
    obtain rfl := Option.some.inj h
    refine ⟨hs.follows, fun rest hmem hne => ?_, ?_⟩
    · rcases List.mem_append.mp hmem with hold | hnew
      · exact hs.sending rest hold hne
      · obtain rfl := List.mem_singleton.mp hnew
        exact ⟨[], rfl, List.nil_subset _⟩
    · by_cases hempty : s.source = []
      · refine .inr (.inr (.inr ?_))
        change s.source.filterMap taken ⊆ _
        rw [hempty]
        exact List.nil_subset _
      · exact .inr (.inr (.inl ⟨s.source, by simp, hempty⟩))
  | send i => exact hs.send h

/-- Once nothing is under way, the replica has the source, perhaps more than once. -/
theorem Consistent.quiet (hs : s.Consistent taken) (hquiet : s.Quiet) :
    Follows (s.source.filterMap taken) s.items ∧ s.source.filterMap taken ⊆ s.items := by
  have hsettled : s.settled taken = s.items := by rw [settled, hquiet.channel, List.foldl_nil]
  refine ⟨hsettled ▸ hs.follows, ?_⟩
  rcases hs.sent with hclear | hwaiting | ⟨rest, hmem, hne⟩ | hall
  · rw [hquiet.channel] at hclear
    exact absurd hclear List.not_mem_nil
  · rw [hquiet.waiting] at hwaiting
    exact absurd hwaiting (Nat.lt_irrefl 0)
  · exact absurd (hquiet.sending rest hmem) hne
  · exact hsettled ▸ hall

theorem length_flatten_set {lists : List (List β)} {i : ℕ} {item : β} {rest : List β}
    (h : lists[i]? = some (item :: rest)) :
    (lists.set i rest).flatten.length + 1 = lists.flatten.length := by
  induction lists generalizing i with
  | nil => cases h
  | cons list lists ih =>
    cases i with
    | zero =>
      obtain rfl := Option.some.inj h
      simp only [List.set_cons_zero, List.flatten_cons, List.length_append, List.length_cons]
      omega
    | succ i =>
      simp only [List.set_cons_succ, List.flatten_cons, List.length_append]
      have := ih h
      omega

theorem work_of_delivery (hlabel : label.isDelivery = true) (h : s.step taken label = some t) :
    t.work + 1 = s.work ∧ t.unsent = s.unsent := by
  cases label with
  | change _ | restart | again | send _ => cases hlabel
  | deliver =>
    obtain ⟨source, items, channel, waiting, sending⟩ := s
    cases channel with
    | nil => cases h
    | cons message rest =>
      cases message with
      | none =>
        obtain rfl := Option.some.inj h
        simp only [work, unsent, List.length_cons, List.countP_cons, Option.isNone_none, if_true,
          Nat.add_one_mul, Nat.add_mul]
        constructor
        · omega
        · ac_rfl
      | some item =>
        obtain rfl := Option.some.inj h
        have hbrings : (if (some item).isNone = true then 1 else 0) = 0 := rfl
        simp only [work, unsent, List.length_cons, List.countP_cons, hbrings, Nat.add_zero,
          and_true]
        omega
  | reload =>
    obtain ⟨hwaiting, h⟩ := Option.ite_none_right_eq_some.mp h
    obtain rfl := Option.some.inj h
    obtain ⟨n, hn⟩ := Nat.exists_eq_add_of_lt hwaiting
    simp only [work, unsent, List.flatten_append, List.flatten_singleton, List.length_append, hn,
      Nat.zero_add, Nat.add_sub_cancel, Nat.add_one_mul n, Nat.add_mul]
    omega

theorem work_of_send {i : ℕ} (h : s.step taken (.send i) = some t) :
    t.work = s.work ∧ t.unsent + 1 = s.unsent := by
  obtain ⟨item, rest, hget, rfl⟩ := send_eq_some h
  have hlength := length_flatten_set hget
  have hbrings : [some item].countP (Option.isNone (α := β)) = 0 := rfl
  simp only [work, unsent, List.length_append, List.length_singleton, List.countP_append, hbrings,
    Nat.add_zero]
  omega

theorem unsent_le_work (s : Replica β α) : s.unsent ≤ s.work := by
  simp only [work, unsent, Nat.add_mul, Nat.mul_add]
  omega

end Replica

end ProxyTun.Library
