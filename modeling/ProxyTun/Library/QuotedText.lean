import Mathlib.Data.List.TakeWhile

/-!
# Searches in quoted text

A text is cut into pieces at its quotation marks. A search for a key between two marks finds the
first such piece, whether it was written as a key or as a value.
-/
namespace ProxyTun.Library.QuotedText

variable {α : Type*} {quote : α} {key piece : List α} {pieces : List (List α)}

def quoted (quote : α) (key : List α) : List α := quote :: (key ++ [quote])

def joined (quote : α) (pieces : List (List α)) : List α := [quote].intercalate pieces

def secondPiece : List (List α) → Option (List α)
  | _ :: piece :: _ :: _ => some piece
  | _ => none

@[simp] theorem joined_singleton (piece : List α) : joined quote [piece] = piece :=
  List.intercalate_singleton

@[simp] theorem joined_cons_cons (piece next : List α) (pieces : List (List α)) :
    joined quote (piece :: next :: pieces) = piece ++ quote :: joined quote (next :: pieces) := by
  rw [joined, List.intercalate_cons_cons, List.append_assoc]
  rfl

theorem mem_joined {c : α} (h : c ∈ joined quote pieces) :
    c = quote ∨ ∃ piece ∈ pieces, c ∈ piece := by
  induction pieces with
  | nil => cases h
  | cons piece pieces ih =>
    cases pieces with
    | nil =>
      rw [joined_singleton] at h
      exact .inr ⟨piece, List.mem_cons_self, h⟩
    | cons next pieces =>
      rw [joined_cons_cons, List.mem_append, List.mem_cons] at h
      rcases h with h | h | h
      · exact .inr ⟨piece, List.mem_cons_self, h⟩
      · exact .inl h
      · exact (ih h).imp_right fun ⟨found, hfound, hc⟩ =>
          ⟨found, List.mem_cons_of_mem piece hfound, hc⟩

/-- A key and its mark start a text if and only if the key is what stands before the first mark. -/
theorem key_prefix_iff (hkey : quote ∉ key) (hpiece : quote ∉ piece) (text : List α) :
    key ++ [quote] <+: piece ++ quote :: text ↔ piece = key := by
  induction key generalizing piece with
  | nil =>
    cases piece with
    | nil => simp
    | cons c piece =>
      have hc : quote ≠ c := fun h => hpiece (h ▸ List.mem_cons_self)
      simp [hc]
  | cons d key ih =>
    have hkey' : quote ∉ key := fun h => hkey (List.mem_cons_of_mem d h)
    have hd : d ≠ quote := fun h => hkey (h ▸ List.mem_cons_self)
    cases piece with
    | nil => simp [hd]
    | cons c piece =>
      have hpiece' : quote ∉ piece := fun h => hpiece (List.mem_cons_of_mem c h)
      rw [List.cons_append, List.cons_append, List.cons_prefix_cons, ih hkey' hpiece',
        List.cons.injEq, eq_comm (a := d)]

/-- How keys and values are laid out: a key, a colon and more, a value, and a gap. -/
structure Layout (α : Type*) where
  colon : α
  /-- What follows the colon. -/
  after : List α
  gap : List α
  colon_not_mem_gap : colon ∉ gap

namespace Layout
variable (layout : Layout α)

def fieldPieces (tail : List (List α)) : List (List α × List α) → List (List α)
  | [] => tail
  | (key, value) :: fields =>
    key :: (layout.colon :: layout.after) :: value :: layout.gap :: fieldPieces tail fields

variable {layout} in
theorem forall_mem_fieldPieces {p : List α → Prop} (hcolon : p (layout.colon :: layout.after))
    (hgap : p layout.gap) {tail : List (List α)} (htail : ∀ piece ∈ tail, p piece)
    {fields : List (List α × List α)} (hfields : ∀ field ∈ fields, p field.1 ∧ p field.2) :
    ∀ piece ∈ layout.fieldPieces tail fields, p piece := by
  induction fields with
  | nil => exact htail
  | cons field fields ih =>
    obtain ⟨hfield, hrest⟩ := List.forall_mem_cons.mp hfields
    simp only [fieldPieces, List.forall_mem_cons]
    exact ⟨hfield.1, hcolon, hfield.2, hgap, ih hrest⟩

end Layout

variable [DecidableEq α]

/-- A text from the first place on where another one starts. -/
def findText (key : List α) : List α → Option (List α)
  | [] => if key = [] then some [] else none
  | c :: text => if key <+: c :: text then some (c :: text) else findText key text

def findElement (c : α) : List α → Option (List α)
  | [] => none
  | d :: text => if d = c then some (d :: text) else findElement c text

/-- The pieces from the first one on that is a key and lies between two marks. -/
def fromKey (key : List α) : List (List α) → Option (List (List α))
  | _ :: piece :: next :: pieces =>
    if piece = key then some (piece :: next :: pieces) else fromKey key (piece :: next :: pieces)
  | _ => none

def fromElement (c : α) : List (List α) → Option (List (List α))
  | [] => none
  | piece :: pieces =>
    if c ∈ piece then some ((piece.dropWhile fun d => d ≠ c) :: pieces) else fromElement c pieces

theorem findText_append (h : quote ∉ piece) (text : List α) :
    findText (quote :: key) (piece ++ text) = findText (quote :: key) text := by
  induction piece with
  | nil => rfl
  | cons c piece ih =>
    obtain ⟨hc, hrest⟩ := not_or.mp (List.mem_cons.not.mp h)
    have hnot : ¬ (quote :: key <+: c :: (piece ++ text)) := fun hstarts =>
      hc (List.cons_prefix_cons.mp hstarts).1
    rw [List.cons_append, findText, if_neg hnot, ih hrest]

theorem findText_of_not_mem {text : List α} (h : quote ∉ text) :
    findText (quote :: key) text = none := by
  rw [← List.append_nil text, findText_append h]
  rfl

theorem findElement_append {c : α} (h : c ∉ piece) (text : List α) :
    findElement c (piece ++ text) = findElement c text := by
  induction piece with
  | nil => rfl
  | cons d piece ih =>
    obtain ⟨hd, hrest⟩ := not_or.mp (List.mem_cons.not.mp h)
    rw [List.cons_append, findElement, if_neg (Ne.symm hd), ih hrest]

theorem suffix_of_findText {text rest : List α} (h : findText key text = some rest) :
    rest <:+ text := by
  induction text with
  | nil =>
    rw [findText] at h
    split_ifs at h
    exact Option.some.inj h ▸ List.suffix_rfl
  | cons c text ih =>
    rw [findText] at h
    split_ifs at h
    · exact Option.some.inj h ▸ List.suffix_rfl
    · exact (ih h).trans (List.suffix_cons c text)

theorem suffix_of_findElement {c : α} {text rest : List α} (h : findElement c text = some rest) :
    rest <:+ text := by
  induction text with
  | nil => cases h
  | cons d text ih =>
    rw [findElement] at h
    split_ifs at h
    · exact Option.some.inj h ▸ List.suffix_rfl
    · exact (ih h).trans (List.suffix_cons d text)

/-- A search for a key finds the first piece between two marks that is the key. -/
theorem findText_joined (hkey : quote ∉ key) (h : ∀ piece ∈ pieces, quote ∉ piece) :
    findText (quoted quote key) (joined quote pieces) =
      (fromKey key pieces).map fun rest => quote :: joined quote rest := by
  induction pieces using fromKey.induct key with
  | case1 first next pieces =>
    obtain ⟨hfirst, hrest⟩ := List.forall_mem_cons.mp h
    have hpiece := hrest key List.mem_cons_self
    have hstarts : quoted quote key <+: quote :: joined quote (key :: next :: pieces) := by
      rw [joined_cons_cons, quoted, List.cons_prefix_cons, key_prefix_iff hkey hpiece]
      exact ⟨rfl, rfl⟩
    rw [joined_cons_cons, quoted, findText_append hfirst, ← quoted, findText, if_pos hstarts,
      fromKey, if_pos rfl, Option.map_some]
  | case2 first piece next pieces hne ih =>
    obtain ⟨hfirst, hrest⟩ := List.forall_mem_cons.mp h
    have hpiece := hrest piece List.mem_cons_self
    have hstarts : ¬ (quoted quote key <+: quote :: joined quote (piece :: next :: pieces)) := by
      rw [joined_cons_cons, quoted, List.cons_prefix_cons, key_prefix_iff hkey hpiece]
      exact fun hboth => hne hboth.2
    rw [joined_cons_cons, quoted, findText_append hfirst, ← quoted, findText, if_neg hstarts,
      fromKey, if_neg hne, ih hrest]
  | case3 pieces hshort =>
    rw [fromKey, Option.map_none]
    · rcases pieces with _ | ⟨first, _ | ⟨last, _ | ⟨next, pieces⟩⟩⟩
      · rfl
      · rw [joined_singleton]
        exact findText_of_not_mem (h first List.mem_cons_self)
      · have hlast : quote ∉ last := h last (by simp)
        have hstarts : ¬ (quoted quote key <+: quote :: last) := by
          rw [quoted, List.cons_prefix_cons]
          exact fun hboth => hlast (hboth.2.subset (by simp))
        rw [joined_cons_cons, joined_singleton, quoted, findText_append (h first (by simp)),
          ← quoted, findText, if_neg hstarts, quoted, findText_of_not_mem hlast]
      · exact absurd rfl (hshort _ _ _ _)
    · exact hshort

theorem findElement_append_of_mem {c : α} (h : c ∈ piece) (text : List α) :
    findElement c (piece ++ text) = some ((piece.dropWhile fun d => d ≠ c) ++ text) := by
  induction piece with
  | nil => cases h
  | cons d piece ih =>
    by_cases hd : d = c
    · simp [findElement, hd]
    · have hrest : c ∈ piece := (List.mem_cons.mp h).resolve_left (Ne.symm hd)
      rw [List.cons_append, findElement, if_neg hd, ih hrest]
      simp [hd]

theorem findElement_of_not_mem {c : α} {text : List α} (h : c ∉ text) :
    findElement c text = none := by
  rw [← List.append_nil text, findElement_append h]
  rfl

theorem findElement_of_mem {c : α} {text : List α} (h : c ∈ text) :
    findElement c text = some (text.dropWhile fun d => d ≠ c) := by
  rw [← List.append_nil text, findElement_append_of_mem h, List.append_nil, List.append_nil]

theorem findElement_joined {c : α} (hc : quote ≠ c) (pieces : List (List α)) :
    findElement c (joined quote pieces) = (fromElement c pieces).map (joined quote) := by
  induction pieces with
  | nil => rfl
  | cons piece pieces ih =>
    rw [fromElement]
    cases pieces with
    | nil =>
      rw [joined_singleton]
      split_ifs with hmem
      · rw [findElement_of_mem hmem, Option.map_some, joined_singleton]
      · rw [findElement_of_not_mem hmem]
        rfl
    | cons next pieces =>
      rw [joined_cons_cons]
      split_ifs with hmem
      · rw [findElement_append_of_mem hmem, Option.map_some, joined_cons_cons]
      · rw [findElement_append hmem, findElement, if_neg hc, ih]

theorem between_joined (h : ∀ piece ∈ pieces, quote ∉ piece) :
    ((findElement quote (joined quote pieces)).bind fun start =>
      (findElement quote start.tail).bind fun _ => some (start.tail.takeWhile fun d => d ≠ quote)) =
        secondPiece pieces := by
  have hstart {first : List α} (hfirst : quote ∉ first) (text : List α) :
      findElement quote (first ++ quote :: text) = some (quote :: text) := by
    rw [findElement_append hfirst, findElement, if_pos rfl]
  rcases pieces with _ | ⟨first, _ | ⟨piece, _ | ⟨next, pieces⟩⟩⟩
  · rfl
  · rw [joined_singleton, findElement_of_not_mem (h first List.mem_cons_self)]
    rfl
  · rw [joined_cons_cons, joined_singleton, hstart (h first (by simp)), Option.bind_some,
      List.tail_cons, findElement_of_not_mem (h piece (by simp))]
    rfl
  · have hpiece : quote ∉ piece := h piece (by simp)
    rw [joined_cons_cons, hstart (h first (by simp)), Option.bind_some, List.tail_cons,
      joined_cons_cons, hstart hpiece, Option.bind_some, List.takeWhile_append_of_pos]
    · simp [secondPiece]
    · intro d hd
      simp only [decide_eq_true_eq]
      exact fun heq => hpiece (heq ▸ hd)

theorem forall_mem_fromKey {rest : List (List α)} (h : ∀ piece ∈ pieces, quote ∉ piece)
    (hrest : fromKey key pieces = some rest) : ∀ piece ∈ rest, quote ∉ piece := by
  induction pieces using fromKey.induct key with
  | case1 first next pieces =>
    rw [fromKey, if_pos rfl, Option.some.injEq] at hrest
    rw [← hrest]
    exact (List.forall_mem_cons.mp h).2
  | case2 first piece next pieces hne ih =>
    rw [fromKey, if_neg hne] at hrest
    exact ih (List.forall_mem_cons.mp h).2 hrest
  | case3 pieces hshort =>
    rw [fromKey] at hrest
    · cases hrest
    · exact hshort

theorem forall_mem_fromElement {c : α} {rest : List (List α)}
    (h : ∀ piece ∈ pieces, quote ∉ piece) (hrest : fromElement c pieces = some rest) :
    ∀ piece ∈ rest, quote ∉ piece := by
  induction pieces with
  | nil => cases hrest
  | cons piece pieces ih =>
    obtain ⟨hpiece, hpieces⟩ := List.forall_mem_cons.mp h
    rw [fromElement] at hrest
    split_ifs at hrest with hmem
    · rw [← Option.some.inj hrest, List.forall_mem_cons]
      exact ⟨fun hdrop => hpiece ((List.dropWhile_sublist _).subset hdrop), hpieces⟩
    · exact ih hpieces hrest

namespace Layout
variable (layout : Layout α)

def fromColon (key : List α) (pieces : List (List α)) : Option (List (List α)) :=
  (fromKey key pieces).bind (fromElement layout.colon)

/-- A key that is not taken for what stands between keys and values. -/
structure IsKey (key : List α) : Prop where
  noColon : layout.colon ∉ key
  ne_gap : key ≠ layout.gap

/-- The value that is found for a key: that of the first field whose key or value it is, and behind
a value the next one. -/
def lookup (key : List α) : List (List α × List α) → Option (List α)
  | [] => none
  | (name, value) :: fields =>
    if name = key then some value
    else if value = key then fields.head?.map Prod.snd
    else lookup key fields

variable {layout}

theorem fromElement_pieces {name : List α} (hname : layout.colon ∉ name) (value : List α)
    (rest : List (List α)) :
    fromElement layout.colon (name :: (layout.colon :: layout.after) :: value :: rest) =
      some ((layout.colon :: layout.after) :: value :: rest) := by
  rw [fromElement, if_neg hname, fromElement, if_pos List.mem_cons_self]
  simp

/-- A search looks at the key and at the value of the first field. Behind a value it finds the colon
of the next field. -/
theorem fromColon_cons (hkey : layout.IsKey key) {name : List α} (hname : layout.colon ∉ name)
    (first value : List α) (rest : List (List α)) :
    layout.fromColon key
        (first :: name :: (layout.colon :: layout.after) :: value :: layout.gap :: rest) =
      if name = key then some ((layout.colon :: layout.after) :: value :: layout.gap :: rest)
      else if value = key then fromElement layout.colon rest
      else layout.fromColon key (layout.gap :: rest) := by
  have hcolon : layout.colon :: layout.after ≠ key := by
    intro h
    exact hkey.noColon (h ▸ List.mem_cons_self)
  have hgap : layout.gap ≠ key := Ne.symm hkey.ne_gap
  unfold fromColon
  rw [fromKey]
  split_ifs with hmatch hvalue
  · rw [Option.bind_some, fromElement_pieces hname]
  · rw [fromKey, if_neg hcolon, fromKey, if_pos hvalue, Option.bind_some, fromElement,
      if_neg (hvalue ▸ hkey.noColon), fromElement, if_neg layout.colon_not_mem_gap]
  · rw [fromKey, if_neg hcolon, fromKey, if_neg hvalue]
    cases rest with
    | nil => rfl
    | cons next rest => rw [fromKey, if_neg hgap]

theorem secondPiece_fromColon (hkey : layout.IsKey key) {last : List α} (hlast : last ≠ key)
    (first final : List α) {fields : List (List α × List α)}
    (hnames : ∀ field ∈ fields, layout.colon ∉ field.1) :
    (layout.fromColon key (first :: layout.fieldPieces [last, final] fields)).bind secondPiece =
      lookup key fields := by
  induction fields generalizing first with
  | nil =>
    rw [fieldPieces, fromColon, fromKey, if_neg hlast]
    rfl
  | cons field fields ih =>
    obtain ⟨name, value⟩ := field
    obtain ⟨hname, hrest⟩ := List.forall_mem_cons.mp hnames
    rw [fieldPieces, fromColon_cons hkey hname, lookup]
    split_ifs with hmatch hvalue
    · cases fields <;> rfl
    · cases fields with
      | nil =>
        rw [fieldPieces, fromElement, fromElement, fromElement]
        split_ifs <;> rfl
      | cons next fields =>
        rw [fieldPieces, fromElement_pieces (hrest next List.mem_cons_self)]
        rfl
    · exact ih layout.gap hrest

end Layout

end ProxyTun.Library.QuotedText
