import Mathlib.Data.List.Basic

/-!
# Datagrams over an unreliable network

A network loses datagrams, doubles them and changes their order, but it makes none up. What a
receiver takes from it are items that were sent, as far as the two sides read the datagrams alike.
-/
namespace ProxyTun.Library

/-- What the sender writes for an item, if anything, and what the receiver takes of a datagram. -/
structure DatagramService (α π β : Type*) where
  encode : α → Option π
  decode : π → Option β

namespace DatagramService

variable {α π β : Type*} (d : DatagramService α π β)

/-- The datagrams for the items, in their order. -/
def written (sent : List α) : List π := sent.filterMap d.encode

def taken (arrived : List π) : List β := arrived.filterMap d.decode

/-- Everything that was taken is read of a datagram that was written for an item. -/
def Delivers (sent : List α) (took : List β) : Prop :=
  ∀ b ∈ took, ∃ a ∈ sent, ∃ p, d.encode a = some p ∧ d.decode p = some b

variable {d} {sent more : List α} {took : List β} {arrived : List π}

theorem written_append : d.written (sent ++ more) = d.written sent ++ d.written more :=
  List.filterMap_append

theorem delivers_nil : d.Delivers sent [] := fun _ hb => absurd hb List.not_mem_nil

theorem Delivers.send (h : d.Delivers sent took) : d.Delivers (sent ++ more) took := by
  intro b hb
  obtain ⟨a, ha, hread⟩ := h b hb
  exact ⟨a, List.mem_append_left more ha, hread⟩

/-- Datagrams arrive that are on their way, any of them and any number of times. -/
theorem Delivers.receive (h : d.Delivers sent took) (harrived : arrived ⊆ d.written sent) :
    d.Delivers sent (took ++ d.taken arrived) := by
  intro b hb
  rcases List.mem_append.mp hb with hold | hnew
  · exact h b hold
  · obtain ⟨p, hp, hdecode⟩ := List.mem_filterMap.mp hnew
    obtain ⟨a, ha, hencode⟩ := List.mem_filterMap.mp (harrived hp)
    exact ⟨a, ha, p, hencode, hdecode⟩

/-- What was taken is what was sent, in the sense in which single datagrams are read back. -/
theorem Delivers.of_readBack {R : α → β → Prop} (h : d.Delivers sent took)
    (hread : ∀ a ∈ sent, ∀ p b, d.encode a = some p → d.decode p = some b → R a b) :
    ∀ b ∈ took, ∃ a ∈ sent, R a b := by
  intro b hb
  obtain ⟨a, ha, p, hencode, hdecode⟩ := h b hb
  exact ⟨a, ha, hread a ha p b hencode hdecode⟩

end DatagramService

end ProxyTun.Library
