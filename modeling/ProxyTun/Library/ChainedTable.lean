import Mathlib.Logic.Function.Basic
import Mathlib.Data.List.Nodup
import Mathlib.Tactic.Common
import ProxyTun.Library.Rows

/-!
# Chained hash tables

Every bucket is a singly linked chain that is searched from its head. The table
carries the two facts its operations rely on: a chain holds only keys that hash to
its bucket, and no chain holds a key twice. Seen through `entry` it is a finite map.
-/
namespace ProxyTun.Library

/-- Chains of nodes `α` with keys `κ`, one chain for each bucket `ι`. -/
structure ChainedTable {α κ ι : Type*} (key : α → κ) (hash : κ → ι) where
  chain : ι → List α
  placed : ∀ i, ∀ a ∈ chain i, hash (key a) = i
  distinct : ∀ i, ((chain i).map key).Nodup

namespace ChainedTable

variable {α κ ι : Type*} [DecidableEq κ] {key : α → κ} {hash : κ → ι}

/-- The first node of a chain with the given key. -/
def search (key : α → κ) (k : κ) (l : List α) : Option α := l.find? fun a => key a = k

def adjustChain (key : α → κ) (k : κ) (f : α → α) (l : List α) : List α :=
  l.map fun a => if key a = k then f a else a

def unlinkChain (key : α → κ) (k : κ) (l : List α) : List α := l.eraseP fun a => key a = k

theorem search_eq_some_mem {k : κ} {l : List α} {a : α} (h : search key k l = some a) :
    a ∈ l ∧ key a = k :=
  ⟨List.mem_of_find?_eq_some h, by simpa using List.find?_some h⟩

theorem search_eq_none {k : κ} {l : List α} : search key k l = none ↔ ∀ a ∈ l, key a ≠ k := by
  simp [search]

theorem search_eq_some_of_nodup {l : List α} (hd : (l.map key).Nodup) {a : α} (ha : a ∈ l) :
    search key (key a) l = some a := by
  induction l with
  | nil => cases ha
  | cons b bs ih =>
    rw [List.map_cons, List.nodup_cons] at hd
    rcases List.mem_cons.mp ha with rfl | hmem
    · simp [search]
    · have hne : key b ≠ key a := fun h => hd.1 (h ▸ List.mem_map_of_mem hmem)
      simpa [search, hne] using ih hd.2 hmem

theorem search_adjust (k j : κ) (f : α → α) (hf : ∀ a, key (f a) = key a) (l : List α) :
    search key j (adjustChain key k f l) =
      if j = k then (search key k l).map f else search key j l := by
  induction l with
  | nil => simp [search, adjustChain]
  | cons a as ih =>
    simp only [search, adjustChain, List.map_cons, List.find?_cons] at ih ⊢
    by_cases hk : key a = k
    · by_cases hj : j = k
      · simp [hk, hf, hj]
      · have hne : k ≠ j := Ne.symm hj
        simpa [hk, hf, hj, hne] using ih
    · by_cases hj : j = k
      · subst hj
        simpa [hk] using ih
      · by_cases ha : key a = j
        · simp [hj, ha]
        · simpa [hk, hj, ha] using ih

theorem search_unlink (k j : κ) {l : List α} (hd : (l.map key).Nodup) :
    search key j (unlinkChain key k l) = if j = k then none else search key j l := by
  induction l with
  | nil => simp [search, unlinkChain]
  | cons a as ih =>
    rw [List.map_cons, List.nodup_cons] at hd
    by_cases hk : key a = k
    · by_cases hj : j = k
      · have hnone : search key k as = none := by
          rw [search_eq_none]
          intro b hb hbk
          exact hd.1 (hk ▸ hbk ▸ List.mem_map_of_mem hb)
        simpa [unlinkChain, hk, hj] using hnone
      · have hne : k ≠ j := Ne.symm hj
        simp [unlinkChain, search, hk, hj, hne]
    · have hih := ih hd.2
      by_cases hj : j = k
      · subst hj
        simpa [unlinkChain, search, hk] using hih
      · by_cases ha : key a = j
        · subst ha
          simp [unlinkChain, search, hk]
        · simpa [unlinkChain, search, hk, ha, hj] using hih

theorem nodup_unlink (k : κ) {l : List α} (hd : (l.map key).Nodup) :
    ((unlinkChain key k l).map key).Nodup :=
  (List.eraseP_sublist.map key).nodup hd

theorem mem_unlink_of_mem {k : κ} {l : List α} {a : α} (h : a ∈ unlinkChain key k l) : a ∈ l :=
  List.mem_of_mem_eraseP h

theorem map_key_adjust (k : κ) (f : α → α) (hf : ∀ a, key (f a) = key a) (l : List α) :
    (adjustChain key k f l).map key = l.map key := by
  simp only [adjustChain, List.map_map]
  refine List.map_congr_left fun a _ => ?_
  by_cases h : key a = k <;> simp [h, hf]

section Split
variable {k : κ} {front back : List α} {a : α}

theorem adjustChain_of_not_mem (f : α → α) {l : List α} (h : ∀ b ∈ l, key b ≠ k) :
    adjustChain key k f l = l :=
  Rows.map_of_name_not_mem (by simpa using h) f

theorem adjustChain_split (f : α → α) (ha : key a = k) (hfront : ∀ b ∈ front, key b ≠ k)
    (hback : ∀ b ∈ back, key b ≠ k) :
    adjustChain key k f (front ++ a :: back) = front ++ f a :: back := by
  have happend : adjustChain key k f (front ++ a :: back) =
      adjustChain key k f front ++ f a :: adjustChain key k f back := by
    simp [adjustChain, ha]
  rw [happend, adjustChain_of_not_mem f hfront, adjustChain_of_not_mem f hback]

theorem unlinkChain_split (ha : key a = k) (hfront : ∀ b ∈ front, key b ≠ k) :
    unlinkChain key k (front ++ a :: back) = front ++ back := by
  rw [unlinkChain, List.eraseP_append_right _ (by simpa using hfront),
    List.eraseP_cons_of_pos (by simpa using ha)]

end Split

/-- The empty table. -/
def empty : ChainedTable key hash where
  chain _ := []
  placed := by simp
  distinct := by simp

/-- The node a lookup of the key finds. -/
def entry (t : ChainedTable key hash) (k : κ) : Option α := search key k (t.chain (hash k))

@[simp] theorem entry_empty (k : κ) : (empty : ChainedTable key hash).entry k = none := rfl

theorem entry_key {t : ChainedTable key hash} {k : κ} {a : α} (h : t.entry k = some a) :
    key a = k := (search_eq_some_mem h).2

theorem entry_mem {t : ChainedTable key hash} {k : κ} {a : α} (h : t.entry k = some a) :
    a ∈ t.chain (hash k) := (search_eq_some_mem h).1

theorem entry_of_mem (t : ChainedTable key hash) {i : ι} {a : α} (h : a ∈ t.chain i) :
    t.entry (key a) = some a := by
  have hi := t.placed i a h
  subst hi
  exact search_eq_some_of_nodup (t.distinct _) h

variable [DecidableEq ι]

/-- Rewrite one chain into another whose nodes keep their place and whose keys stay distinct. -/
def setChain (t : ChainedTable key hash) (i : ι) (l : List α)
    (hplaced : ∀ a ∈ l, hash (key a) = i) (hdistinct : (l.map key).Nodup) :
    ChainedTable key hash where
  chain := Function.update t.chain i l
  placed := by
    intro j a ha
    by_cases h : j = i
    · subst h
      rw [Function.update_self] at ha
      exact hplaced a ha
    · rw [Function.update_of_ne h] at ha
      exact t.placed j a ha
  distinct := by
    intro j
    by_cases h : j = i
    · subst h
      rwa [Function.update_self]
    · rw [Function.update_of_ne h]
      exact t.distinct j

/-- Lookups in the rewritten bucket search the new chain, all others are unchanged. -/
theorem entry_setChain (t : ChainedTable key hash) (i : ι) (l : List α) (hp hd) (k : κ) :
    (t.setChain i l hp hd).entry k = if hash k = i then search key k l else t.entry k := by
  by_cases h : hash k = i
  · subst h
    simp [entry, setChain]
  · simp [entry, setChain, h]

def adjust (t : ChainedTable key hash) (k : κ) (f : α → α) (hf : ∀ a, key (f a) = key a) :
    ChainedTable key hash :=
  t.setChain (hash k) (adjustChain key k f (t.chain (hash k)))
    (by
      intro a ha
      have hk : key a ∈ (t.chain (hash k)).map key := by
        rw [← map_key_adjust k f hf]
        exact List.mem_map_of_mem ha
      obtain ⟨b, hb, hkey⟩ := List.mem_map.mp hk
      rw [← hkey]
      exact t.placed _ b hb)
    (by rw [map_key_adjust k f hf]; exact t.distinct _)

theorem chain_adjust (t : ChainedTable key hash) (k : κ) (f : α → α) (hf) :
    (t.adjust k f hf).chain =
      Function.update t.chain (hash k) (adjustChain key k f (t.chain (hash k))) := rfl

theorem entry_adjust (t : ChainedTable key hash) (k j : κ) (f : α → α) (hf) :
    (t.adjust k f hf).entry j = if j = k then (t.entry k).map f else t.entry j := by
  rw [adjust, entry_setChain]
  by_cases hj : j = k
  · subst hj
    simp [search_adjust j j f hf, entry]
  · by_cases hh : hash j = hash k
    · rw [if_pos hh, search_adjust k j f hf, if_neg hj, if_neg hj, entry, hh]
    · rw [if_neg hh, if_neg hj]

/-- Insert a node whose key the table does not hold at the head of its chain. -/
def insert (t : ChainedTable key hash) (k : κ) (new : α) (hk : key new = k)
    (h : t.entry k = none) : ChainedTable key hash :=
  t.setChain (hash k) (new :: t.chain (hash k))
    (by
      intro a ha
      rcases List.mem_cons.mp ha with rfl | hmem
      · rw [hk]
      · exact t.placed _ a hmem)
    (by
      rw [List.map_cons, List.nodup_cons]
      refine ⟨?_, t.distinct _⟩
      intro hmem
      obtain ⟨b, hb, hkey⟩ := List.mem_map.mp hmem
      exact search_eq_none.mp h b hb (hkey.trans hk))

theorem chain_insert (t : ChainedTable key hash) (k : κ) (new : α) (hk h) :
    (t.insert k new hk h).chain = Function.update t.chain (hash k) (new :: t.chain (hash k)) := rfl

theorem entry_insert (t : ChainedTable key hash) (k : κ) (new : α) (hk h) (j : κ) :
    (t.insert k new hk h).entry j = if j = k then some new else t.entry j := by
  rw [insert, entry_setChain]
  by_cases hj : j = k
  · subst hj
    simp [search, hk]
  · by_cases hh : hash j = hash k
    · have hne : k ≠ j := Ne.symm hj
      rw [if_pos hh, if_neg hj, entry, hh]
      simp [search, hk, hne]
    · rw [if_neg hh, if_neg hj]

def unlink (t : ChainedTable key hash) (k : κ) : ChainedTable key hash :=
  t.setChain (hash k) (unlinkChain key k (t.chain (hash k)))
    (fun a ha => t.placed _ a (mem_unlink_of_mem ha))
    (nodup_unlink k (t.distinct _))

theorem chain_unlink (t : ChainedTable key hash) (k : κ) :
    (t.unlink k).chain = Function.update t.chain (hash k) (unlinkChain key k (t.chain (hash k))) :=
  rfl

theorem entry_unlink (t : ChainedTable key hash) (k j : κ) :
    (t.unlink k).entry j = if j = k then none else t.entry j := by
  rw [unlink, entry_setChain]
  by_cases hj : j = k
  · subst hj
    simp [search_unlink j j (t.distinct _)]
  · by_cases hh : hash j = hash k
    · rw [if_pos hh, search_unlink k j (t.distinct _), if_neg hj, if_neg hj, entry, hh]
    · rw [if_neg hh, if_neg hj]

/-- Keep only the nodes of one bucket that pass a test. -/
def prune (t : ChainedTable key hash) (i : ι) (keep : α → Bool) : ChainedTable key hash :=
  t.setChain i ((t.chain i).filter keep)
    (fun a ha => t.placed i a (List.mem_of_mem_filter ha))
    ((List.filter_sublist.map key).nodup (t.distinct i))

theorem entry_prune (t : ChainedTable key hash) (i : ι) (keep : α → Bool) (k : κ) :
    (t.prune i keep).entry k = if hash k = i then (t.entry k).filter keep else t.entry k := by
  rw [prune, entry_setChain]
  by_cases h : hash k = i
  · subst h
    simp only [if_true]
    cases he : t.entry k with
    | none =>
      rw [Option.filter_none, search_eq_none]
      exact fun a ha => search_eq_none.mp he a (List.mem_of_mem_filter ha)
    | some a =>
      have hkey := entry_key he
      subst hkey
      by_cases hkeep : keep a
      · rw [Option.filter_some, if_pos hkeep]
        exact search_eq_some_of_nodup ((List.filter_sublist.map key).nodup (t.distinct _))
          (List.mem_filter.mpr ⟨entry_mem he, hkeep⟩)
      · rw [Option.filter_some, if_neg hkeep, search_eq_none]
        intro b hb hbk
        have hb' := t.entry_of_mem (List.mem_of_mem_filter hb)
        rw [hbk, he] at hb'
        obtain rfl := Option.some.inj hb'
        exact hkeep (List.mem_filter.mp hb).2
  · rw [if_neg h, if_neg h]

/-- Keep only the nodes that pass a test. -/
def filter (t : ChainedTable key hash) (keep : α → Bool) : ChainedTable key hash where
  chain i := (t.chain i).filter keep
  placed i a ha := t.placed i a (List.mem_of_mem_filter ha)
  distinct i := (List.filter_sublist.map key).nodup (t.distinct i)

theorem entry_filter (t : ChainedTable key hash) (keep : α → Bool) (k : κ) :
    (t.filter keep).entry k = (t.entry k).filter keep := by
  have hchain : (t.prune (hash k) keep).chain (hash k) = (t.chain (hash k)).filter keep :=
    Function.update_self ..
  have hprune := t.entry_prune (hash k) keep k
  rwa [if_pos rfl, entry, hchain] at hprune

section Scan

variable {n : ℕ} {hash : κ → Fin n}

/-- The first node with a property, from the first bucket to the last. -/
def scan (t : ChainedTable key hash) (P : α → Bool) : Option α :=
  (List.finRange n).findSome? fun i => (t.chain i).find? P

def ComesFirst (t : ChainedTable key hash) (P : α → Bool) (a : α) : Prop :=
  (∀ i < hash (key a), ∀ b ∈ t.chain i, P b = false) ∧
    ∀ b ∈ (t.chain (hash (key a))).takeWhile fun b => key b ≠ key a, P b = false

instance (t : ChainedTable key hash) (P : α → Bool) (a : α) : Decidable (t.ComesFirst P a) :=
  inferInstanceAs (Decidable (_ ∧ _))

theorem findSome_finRange {f : Fin n → Option α} {a : α} :
    (List.finRange n).findSome? f = some a ↔ ∃ i, f i = some a ∧ ∀ j < i, f j = none := by
  rw [List.findSome?_eq_some_iff]
  constructor
  · rintro ⟨before, i, after, hsplit, hi, hbefore⟩
    refine ⟨i, hi, fun j hj => hbefore j ?_⟩
    have hsorted := List.pairwise_lt_finRange n
    rw [hsplit, List.pairwise_append, List.pairwise_cons] at hsorted
    have hmem : j ∈ before ++ i :: after := hsplit ▸ List.mem_finRange j
    rcases List.mem_append.mp hmem with h | h
    · exact h
    · rcases List.mem_cons.mp h with rfl | hafter
      · exact absurd hj (Fin.lt_irrefl j)
      · exact absurd hj (Fin.lt_asymm (hsorted.2.1.1 j hafter))
  · rintro ⟨i, hi, hlow⟩
    obtain ⟨before, after, hsplit⟩ := List.append_of_mem (List.mem_finRange i)
    refine ⟨before, i, after, hsplit, hi, fun j hj => hlow j ?_⟩
    have hsorted := List.pairwise_lt_finRange n
    rw [hsplit, List.pairwise_append] at hsorted
    exact hsorted.2.2 j hj i List.mem_cons_self

theorem find_eq_some_iff_takeWhile {P : α → Bool} {l : List α} (hd : (l.map key).Nodup) {a : α} :
    l.find? P = some a ↔
      a ∈ l ∧ P a = true ∧ ∀ b ∈ l.takeWhile fun b => key b ≠ key a, P b = false := by
  induction l with
  | nil => simp
  | cons c l ih =>
    rw [List.map_cons, List.nodup_cons] at hd
    rw [List.find?_cons]
    by_cases hc : key c = key a
    · cases hP : P c with
      | true =>
        simp only [Option.some.injEq, List.mem_cons]
        constructor
        · rintro rfl
          exact ⟨.inl rfl, hP, by simp⟩
        · rintro ⟨rfl | hmem, -, -⟩
          · rfl
          · exact absurd (hc ▸ List.mem_map_of_mem hmem) hd.1
      | false =>
        have hnot : a ∉ l := fun hmem => hd.1 (hc ▸ List.mem_map_of_mem hmem)
        simp only [ih hd.2, hnot, false_and, List.mem_cons, or_false]
        refine ⟨False.elim, ?_⟩
        rintro ⟨rfl, hPa, -⟩
        simp [hP] at hPa
    · have hne : a ≠ c := fun h => hc (h ▸ rfl)
      cases hP : P c with
      | true =>
        simp only [Option.some.injEq, hc, ne_eq, not_false_eq_true, decide_true,
          List.takeWhile_cons_of_pos, List.mem_cons, forall_eq_or_imp, hP]
        exact ⟨fun h => absurd h.symm hne, fun h => by simp at h⟩
      | false =>
        simp only [ih hd.2, hc, ne_eq, not_false_eq_true, decide_true,
          List.takeWhile_cons_of_pos, List.mem_cons, forall_eq_or_imp, hP, hne, false_or,
          true_and]

theorem scan_eq_some_iff (t : ChainedTable key hash) (P : α → Bool) (a : α) :
    t.scan P = some a ↔ t.entry (key a) = some a ∧ P a = true ∧ t.ComesFirst P a := by
  rw [scan, findSome_finRange]
  constructor
  · rintro ⟨i, hi, hlow⟩
    obtain ⟨hmem, hP, hfirst⟩ := (find_eq_some_iff_takeWhile (t.distinct i)).mp hi
    obtain rfl := t.placed i a hmem
    refine ⟨t.entry_of_mem hmem, hP, fun j hj b hb => ?_, hfirst⟩
    simpa using List.find?_eq_none.mp (hlow j hj) b hb
  · rintro ⟨hentry, hP, hlow, hfirst⟩
    refine ⟨hash (key a), (find_eq_some_iff_takeWhile (t.distinct _)).mpr
      ⟨entry_mem hentry, hP, hfirst⟩, fun j hj => List.find?_eq_none.mpr fun b hb => ?_⟩
    simp [hlow j hj b hb]

end Scan

end ChainedTable
end ProxyTun.Library
