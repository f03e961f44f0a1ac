import Mathlib.Data.List.DropRight
import ProxyTun.WindowsGui.CommandLine

/-!
# Rules on the command line

Both command lines take rules as `process:hosts:ports:protocol:action`. On Linux the string is cut
into tokens, none of which is empty, and what follows the fifth is ignored. On Windows it is split
into five parts at most, which are trimmed.
-/
namespace ProxyTun.Cli
open WindowsGui Windows

def splitAtMost (separator : Char) (count : ℕ) (text : CStr) : List CStr :=
  let parts := text.splitOn separator
  if parts.length ≤ count then parts
  else parts.take (count - 1) ++ [[separator].intercalate (parts.drop (count - 1))]

def trim (text : CStr) : CStr := (text.dropWhile isWhiteSpace).rdropWhile isWhiteSpace

def defaultIfEmpty (text : CStr) : CStr := WindowsGui.defaultIfEmpty text ['*']

/-- The turn of `ParseRules` for one rule, which throws for a rule that it does not understand. -/
def parseRule (rule : CStr) : Option RuleFields :=
  match splitAtMost ':' 5 rule with
  | [processName, targetHosts, targetPorts, protocol, action] => do
    let protocol ← parseProtocol (trim protocol)
    let action ← parseAction (trim action)
    return ⟨defaultIfEmpty (trim processName), defaultIfEmpty (trim targetHosts),
      defaultIfEmpty (trim targetPorts), protocol, action⟩
  | _ => none

end ProxyTun.Cli

namespace ProxyTun.Linux.Cli
open Windows (RuleFields)

/-- `upper`, a buffer of 16 characters. -/
def upperWord (text : CStr) : CStr := (text.take 15).map Char.toUpper

/-- `parse_protocol`, which exits for any other word. -/
def parseProtocol (text : CStr) : Option RuleProtocol :=
  let upper := upperWord text
  if upper = "TCP".toList then some .tcp
  else if upper = "UDP".toList then some .udp
  else if upper = "BOTH".toList then some .both
  else none

/-- `parse_action`, which exits for any other word. -/
def parseAction (text : CStr) : Option RuleAction :=
  let upper := upperWord text
  if upper = "PROXY".toList then some .proxy
  else if upper = "DIRECT".toList then some .direct
  else if upper = "BLOCK".toList then some .block
  else none

/-- `default_if_empty`, for a field of 256 characters. -/
def defaultIfEmpty (src : CStr) : CStr :=
  if src = [] ∨ src = [' '] then ['*'] else src.take 255

/-- `parse_rule`, with the string in a buffer of `MAX_RULE_STR`. -/
def parseRule (rule : CStr) : Option RuleFields :=
  match (strtok [':'] (rule.take 511)).take 5 with
  | [processName, targetHosts, targetPorts, protocol, action] => do
    let protocol ← parseProtocol protocol
    let action ← parseAction action
    return ⟨defaultIfEmpty processName, defaultIfEmpty targetHosts, defaultIfEmpty targetPorts,
      protocol, action⟩
  | _ => none

end ProxyTun.Linux.Cli

namespace ProxyTun.CommandLine
open Windows (RuleFields)
open WindowsGui (isWhiteSpace)

def protocolWords : List CStr := ["TCP".toList, "UDP".toList, "BOTH".toList]

def actionWords : List CStr := ["PROXY".toList, "DIRECT".toList, "BLOCK".toList]

def AreWords (protocol action : CStr) : Prop :=
  protocol.map Char.toUpper ∈ protocolWords ∧ action.map Char.toUpper ∈ actionWords

/-- The string is shorter than the buffers for it and for its fields. -/
def FitsBuffers (rule : CStr) : Prop :=
  rule.length < 512 ∧ ∀ field ∈ rule.splitOn ':', field.length < 256

/-- A list that is a single blank, or has no blank at its ends. -/
def IsPlainList (field : CStr) : Prop := field = [' '] ∨ field ≠ [] ∧ Cli.trim field = field

/-- Five fields with nothing to be left out or trimmed. -/
def IsPlainRule (rule : CStr) : Prop :=
  ∃ processName targetHosts targetPorts protocol action,
    rule.splitOn ':' = [processName, targetHosts, targetPorts, protocol, action] ∧
      IsPlainList processName ∧ IsPlainList targetHosts ∧ IsPlainList targetPorts ∧
      Cli.trim protocol = protocol ∧ Cli.trim action = action

/-- Of the fields that are not empty, the fourth and the fifth are words. -/
def TokensEndInWords (rule : CStr) : Prop :=
  ∃ processName targetHosts targetPorts protocol action rest,
    ((rule.splitOn ':').filter fun field => !field.isEmpty) =
        processName :: targetHosts :: targetPorts :: protocol :: action :: rest ∧
      AreWords protocol action

/-- There are five fields, and up to blanks the last two are words. -/
def FieldsEndInWords (rule : CStr) : Prop :=
  ∃ processName targetHosts targetPorts protocol action,
    rule.splitOn ':' = [processName, targetHosts, targetPorts, protocol, action] ∧
      AreWords (Cli.trim protocol) (Cli.trim action)

/-- Both command lines make the same of the string, and a blank list stands for everything. -/
def SameRule (rule : CStr) : Prop :=
  Linux.Cli.parseRule rule = Cli.parseRule rule ∧
    ∀ processName targetHosts targetPorts protocol action fields,
      rule.splitOn ':' = [processName, targetHosts, targetPorts, protocol, action] →
      Linux.Cli.parseRule rule = some fields →
        (WindowsGui.isBlank processName = true → fields.processName = ['*']) ∧
        (WindowsGui.isBlank targetHosts = true → fields.targetHosts = ['*']) ∧
        (WindowsGui.isBlank targetPorts = true → fields.targetPorts = ['*'])

section Words

variable {text word : CStr}

theorem upperWord_eq_iff (h : word.length < 15) :
    Linux.Cli.upperWord text = word ↔ text.map Char.toUpper = word := by
  unfold Linux.Cli.upperWord
  rw [List.map_take]
  constructor
  · rintro rfl
    rw [List.length_take] at h
    exact (List.take_of_length_le (by omega)).symm
  · rintro rfl
    exact List.take_of_length_le (by omega)

theorem linux_parseProtocol (text : CStr) :
    Linux.Cli.parseProtocol text = Cli.parseProtocol text := by
  unfold Linux.Cli.parseProtocol Cli.parseProtocol
  simp only [upperWord_eq_iff (show ("TCP".toList : CStr).length < 15 by decide),
    upperWord_eq_iff (show ("UDP".toList : CStr).length < 15 by decide),
    upperWord_eq_iff (show ("BOTH".toList : CStr).length < 15 by decide)]

theorem linux_parseAction (text : CStr) : Linux.Cli.parseAction text = Cli.parseAction text := by
  unfold Linux.Cli.parseAction Cli.parseAction
  simp only [upperWord_eq_iff (show ("PROXY".toList : CStr).length < 15 by decide),
    upperWord_eq_iff (show ("DIRECT".toList : CStr).length < 15 by decide),
    upperWord_eq_iff (show ("BLOCK".toList : CStr).length < 15 by decide)]

theorem isSome_parseProtocol (text : CStr) :
    (Cli.parseProtocol text).isSome = true ↔ text.map Char.toUpper ∈ protocolWords := by
  unfold Cli.parseProtocol protocolWords
  dsimp only
  split_ifs <;> simp_all

theorem isSome_parseAction (text : CStr) :
    (Cli.parseAction text).isSome = true ↔ text.map Char.toUpper ∈ actionWords := by
  unfold Cli.parseAction actionWords
  dsimp only
  split_ifs <;> simp_all

theorem toUpper_eq_self {c : Char} (h : c.toNat < 97 ∨ 122 < c.toNat) : c.toUpper = c := by
  apply dif_neg
  rintro ⟨hlow, hhigh⟩
  rw [UInt32.le_iff_toNat_le] at hlow hhigh
  change 97 ≤ c.toNat at hlow
  change c.toNat ≤ 122 at hhigh
  omega

theorem isLetter_of_mem {words : List CStr} (hwords : words = protocolWords ∨ words = actionWords)
    (htext : text.map Char.toUpper ∈ words) {c : Char} (hc : c ∈ text) :
    65 ≤ c.toUpper.toNat ∧ c.toUpper.toNat ≤ 90 := by
  have hletters :
      (words.all fun word => word.all fun c => 65 ≤ c.toNat && c.toNat ≤ 90) = true := by
    rcases hwords with rfl | rfl <;> decide
  have hletter := List.all_eq_true.mp (List.all_eq_true.mp hletters _ htext) _
    (List.mem_map_of_mem hc)
  simpa using hletter

theorem isWhiteSpace_eq_false {c : Char} (h : 65 ≤ c.toUpper.toNat ∧ c.toUpper.toNat ≤ 90) :
    isWhiteSpace c = false := by
  by_contra hblank
  rw [Bool.not_eq_false, isWhiteSpace] at hblank
  simp only [Bool.or_eq_true, Bool.and_eq_true, decide_eq_true_eq] at hblank
  have hsame : c.toUpper = c := toUpper_eq_self (by omega)
  rw [hsame] at h
  omega

theorem trimmed_eq_self {p : Char → Bool} (h : ∀ c ∈ text, p c = false) :
    (text.dropWhile p).rdropWhile p = text := by
  have hnot (l : CStr) (hl : ∀ c ∈ l, p c = false) : l.dropWhile p = l := by
    rw [List.dropWhile_eq_self_iff]
    exact fun _ => by simp [hl]
  rw [hnot text h, List.rdropWhile, hnot _ (by simpa using h), List.reverse_reverse]

theorem trim_of_mem {words : List CStr} (hwords : words = protocolWords ∨ words = actionWords)
    (htext : text.map Char.toUpper ∈ words) : Cli.trim text = text :=
  trimmed_eq_self fun _ hc => isWhiteSpace_eq_false (isLetter_of_mem hwords htext hc)

end Words

section Trimming

variable {text : CStr}

theorem trim_of_isBlank (h : WindowsGui.isBlank text = true) : Cli.trim text = [] := by
  have hdrop : text.dropWhile isWhiteSpace = [] :=
    List.dropWhile_eq_nil_iff.mpr (List.all_eq_true.mp h)
  rw [Cli.trim, hdrop, List.rdropWhile_nil]

/-- Trimming takes nothing but blanks away. -/
theorem mem_trim {c : Char} (hc : c ∈ text) (h : isWhiteSpace c = false) : c ∈ Cli.trim text := by
  have hdrop : c ∈ text.dropWhile isWhiteSpace := by
    rw [← @List.takeWhile_append_dropWhile _ isWhiteSpace text, List.mem_append] at hc
    refine hc.resolve_left fun htake => ?_
    rw [List.mem_takeWhile_imp htake] at h
    cases h
  rw [← @List.rdropWhile_append_rtakeWhile _ isWhiteSpace (text.dropWhile isWhiteSpace),
    List.mem_append] at hdrop
  refine hdrop.resolve_right fun htake => ?_
  rw [List.mem_rtakeWhile_imp htake] at h
  cases h

/-- Both command lines make the same of a list that is plain, and of no other. -/
theorem defaultIfEmpty_eq_iff (hne : text ≠ []) (hlength : text.length < 256) :
    Linux.Cli.defaultIfEmpty text = Cli.defaultIfEmpty (Cli.trim text) ↔ IsPlainList text := by
  unfold Linux.Cli.defaultIfEmpty Cli.defaultIfEmpty WindowsGui.defaultIfEmpty IsPlainList
  simp only [hne, false_or, ne_eq, not_false_eq_true, true_and]
  rw [List.take_of_length_le (by omega)]
  by_cases hblank : text = [' ']
  · rw [if_pos hblank, if_pos (by rw [hblank]; decide)]
    exact iff_of_true rfl (.inl hblank)
  · rw [if_neg hblank, or_iff_right hblank]
    split_ifs with htrim
    · constructor
      · rintro rfl
        rfl
      · intro hsame
        rw [hsame] at htrim
        exact absurd (hsame.symm.trans (trim_of_isBlank htrim)) hne
    · exact eq_comm

end Trimming

section Fields

variable {rule a b c p x : CStr} {rest : List CStr}

/-- A rule of three lists and two words. -/
def ruleOf (processName targetHosts targetPorts protocol action : CStr) : Option RuleFields := do
  let protocol ← Cli.parseProtocol protocol
  let action ← Cli.parseAction action
  return ⟨processName, targetHosts, targetPorts, protocol, action⟩

theorem isSome_ruleOf (a b c p x : CStr) : (ruleOf a b c p x).isSome = true ↔ AreWords p x := by
  rw [AreWords, ← isSome_parseProtocol, ← isSome_parseAction, ruleOf]
  cases Cli.parseProtocol p <;> cases Cli.parseAction x <;> simp

theorem ruleOf_eq_iff {a' b' c' : CStr} (h : AreWords p x) :
    ruleOf a b c p x = ruleOf a' b' c' p x ↔ a = a' ∧ b = b' ∧ c = c' := by
  rw [AreWords, ← isSome_parseProtocol, ← isSome_parseAction] at h
  obtain ⟨protocol, hprotocol⟩ := Option.isSome_iff_exists.mp h.1
  obtain ⟨action, haction⟩ := Option.isSome_iff_exists.mp h.2
  simp [ruleOf, hprotocol, haction]

theorem lists_of_ruleOf {fields : RuleFields} (h : ruleOf a b c p x = some fields) :
    fields.processName = a ∧ fields.targetHosts = b ∧ fields.targetPorts = c := by
  obtain ⟨protocol, -, h⟩ := Option.bind_eq_some_iff.mp h
  obtain ⟨action, -, h⟩ := Option.bind_eq_some_iff.mp h
  obtain rfl := Option.some.inj h
  exact ⟨rfl, rfl, rfl⟩

theorem linux_parseRule (hlength : rule.length < 512)
    (h : (rule.splitOn ':').filter (fun field => !field.isEmpty) = a :: b :: c :: p :: x :: rest) :
    Linux.Cli.parseRule rule = ruleOf (Linux.Cli.defaultIfEmpty a) (Linux.Cli.defaultIfEmpty b)
      (Linux.Cli.defaultIfEmpty c) p x := by
  rw [Linux.Cli.parseRule, List.take_of_length_le (show rule.length ≤ 511 by omega),
    strtok_singleton, h]
  simp only [List.take_succ_cons, List.take_zero]
  rw [linux_parseProtocol, linux_parseAction]
  rfl

/-- The command line for Linux takes five tokens or more. -/
theorem isSome_linux_parseRule (hlength : rule.length < 512) :
    (Linux.Cli.parseRule rule).isSome = true ↔ TokensEndInWords rule := by
  constructor
  · intro h
    have hsome := h
    rw [Linux.Cli.parseRule] at h
    split at h
    case h_1 a b c p x hfive =>
      rw [List.take_of_length_le (show rule.length ≤ 511 by omega), strtok_singleton] at hfive
      have htokens := List.take_append_drop 5
        ((rule.splitOn ':').filter fun field => !field.isEmpty)
      rw [hfive] at htokens
      rw [linux_parseRule hlength htokens.symm, isSome_ruleOf] at hsome
      exact ⟨a, b, c, p, x, _, htokens.symm, hsome⟩
    case h_2 => cases h
  · rintro ⟨a, b, c, p, x, rest, htokens, hwords⟩
    rw [linux_parseRule hlength htokens, isSome_ruleOf]
    exact hwords

theorem windows_parseRule (h : rule.splitOn ':' = [a, b, c, p, x]) :
    Cli.parseRule rule = ruleOf (Cli.defaultIfEmpty (Cli.trim a)) (Cli.defaultIfEmpty (Cli.trim b))
      (Cli.defaultIfEmpty (Cli.trim c)) (Cli.trim p) (Cli.trim x) := by
  rw [Cli.parseRule, Cli.splitAtMost, h]
  rfl

theorem splitOn_of_splitAtMost (h : Cli.splitAtMost ':' 5 rule = [a, b, c, p, x])
    (hword : (Cli.trim x).map Char.toUpper ∈ actionWords) :
    rule.splitOn ':' = [a, b, c, p, x] := by
  unfold Cli.splitAtMost at h
  dsimp only at h
  split_ifs at h with hcount
  · exact h
  · have hlast : [[':'].intercalate ((rule.splitOn ':').drop 4)] = [x] :=
      (List.append_inj' (show _ = [a, b, c, p] ++ [x] from h) rfl).2
    obtain ⟨f, g, rest, hrest⟩ : ∃ f g rest, (rule.splitOn ':').drop 4 = f :: g :: rest := by
      have hlength : ((rule.splitOn ':').drop 4).length = (rule.splitOn ':').length - 4 :=
        List.length_drop
      match (rule.splitOn ':').drop 4, hlength with
      | [], hlength => simp at hlength; omega
      | [_], hlength => simp at hlength; omega
      | f :: g :: rest, _ => exact ⟨f, g, rest, rfl⟩
    have hcolon : ':' ∈ Cli.trim x := by
      rw [← List.singleton_inj.mp hlast, hrest, List.intercalate_cons_cons]
      exact mem_trim (by simp) (by decide)
    exact absurd (isLetter_of_mem (.inr rfl) hword hcolon) (by decide)

theorem isSome_windows_parseRule :
    (Cli.parseRule rule).isSome = true ↔ FieldsEndInWords rule := by
  constructor
  · intro h
    rw [Cli.parseRule] at h
    split at h
    case h_1 a b c p x hfive =>
      change (ruleOf _ _ _ (Cli.trim p) (Cli.trim x)).isSome = true at h
      rw [isSome_ruleOf] at h
      exact ⟨a, b, c, p, x, splitOn_of_splitAtMost hfive h.2, h⟩
    case h_2 => cases h
  · rintro ⟨a, b, c, p, x, hfields, hwords⟩
    rw [windows_parseRule hfields, isSome_ruleOf]
    exact hwords

theorem tokens_eq_fields (hfields : rule.splitOn ':' = [a, b, c, p, x])
    {a' b' c' p' x' : CStr} (htokens : ((rule.splitOn ':').filter fun field => !field.isEmpty) =
      a' :: b' :: c' :: p' :: x' :: rest) :
    ((rule.splitOn ':').filter fun field => !field.isEmpty) = rule.splitOn ':' := by
  apply List.filter_sublist.eq_of_length_le
  rw [htokens, hfields]
  simp

theorem IsPlainList.ne_nil {field : CStr} (h : IsPlainList field) : field ≠ [] := by
  rcases h with rfl | h
  · exact List.cons_ne_nil _ _
  · exact h.1

theorem AreWords.ne_nil (h : AreWords p x) : p ≠ [] ∧ x ≠ [] := by
  constructor
  · rintro rfl
    exact absurd h.1 (by decide)
  · rintro rfl
    exact absurd h.2 (by decide)

theorem isPlainRule_of_eq (hfits : FitsBuffers rule)
    (hsame : Linux.Cli.parseRule rule = Cli.parseRule rule) (htokens : TokensEndInWords rule)
    (hfields : FieldsEndInWords rule) : IsPlainRule rule := by
  obtain ⟨a, b, c, p, x, hsplit, -⟩ := hfields
  obtain ⟨a', b', c', p', x', rest, hfilter, hwords⟩ := htokens
  have hall := tokens_eq_fields hsplit hfilter
  have hne : ∀ field ∈ rule.splitOn ':', field ≠ [] := by
    intro field hfield
    rw [← hall, List.mem_filter] at hfield
    simpa using hfield.2
  rw [hall, hsplit] at hfilter
  obtain ⟨rfl, rfl, rfl, rfl, rfl, rfl⟩ :
      a = a' ∧ b = b' ∧ c = c' ∧ p = p' ∧ x = x' ∧ [] = rest := by
    simpa using hfilter
  have hp : Cli.trim p = p := trim_of_mem (.inl rfl) hwords.1
  have hx : Cli.trim x = x := trim_of_mem (.inr rfl) hwords.2
  have hlist {field : CStr} (hmem : field ∈ [a, b, c, p, x])
      (heq : Linux.Cli.defaultIfEmpty field = Cli.defaultIfEmpty (Cli.trim field)) :
      IsPlainList field := by
    rw [← hsplit] at hmem
    exact (defaultIfEmpty_eq_iff (hne field hmem) (hfits.2 field hmem)).mp heq
  rw [linux_parseRule hfits.1 (hall.trans hsplit), windows_parseRule hsplit, hp, hx,
    ruleOf_eq_iff hwords] at hsame
  obtain ⟨ha, hb, hc⟩ := hsame
  exact ⟨a, b, c, p, x, hsplit, hlist (by simp) ha, hlist (by simp) hb, hlist (by simp) hc, hp, hx⟩

theorem eq_of_isPlainRule (hfits : FitsBuffers rule) (hplain : IsPlainRule rule)
    (hwords : TokensEndInWords rule ∨ FieldsEndInWords rule) :
    Linux.Cli.parseRule rule = Cli.parseRule rule := by
  obtain ⟨a, b, c, p, x, hsplit, ha, hb, hc, hp, hx⟩ := hplain
  have hpx : AreWords p x := by
    rcases hwords with ⟨a', b', c', p', x', rest, hfilter, hwords⟩ |
      ⟨a', b', c', p', x', hfive, hwords⟩
    · rw [tokens_eq_fields hsplit hfilter, hsplit] at hfilter
      obtain ⟨-, -, -, rfl, rfl, -⟩ : a = a' ∧ b = b' ∧ c = c' ∧ p = p' ∧ x = x' ∧ [] = rest := by
        simpa using hfilter
      exact hwords
    · rw [hsplit] at hfive
      obtain ⟨-, -, -, rfl, rfl⟩ : a = a' ∧ b = b' ∧ c = c' ∧ p = p' ∧ x = x' := by
        simpa using hfive
      rwa [hp, hx] at hwords
  have hall : ((rule.splitOn ':').filter fun field => !field.isEmpty) = [a, b, c, p, x] := by
    rw [hsplit, List.filter_eq_self]
    simp [ha.ne_nil, hb.ne_nil, hc.ne_nil, hpx.ne_nil]
  have hlist {field : CStr} (hmem : field ∈ [a, b, c, p, x]) (hfield : IsPlainList field) :
      Linux.Cli.defaultIfEmpty field = Cli.defaultIfEmpty (Cli.trim field) :=
    (defaultIfEmpty_eq_iff hfield.ne_nil (hfits.2 field (hsplit ▸ hmem))).mpr hfield
  rw [linux_parseRule hfits.1 hall, windows_parseRule hsplit, hp, hx, hlist (by simp) ha,
    hlist (by simp) hb, hlist (by simp) hc]

theorem windows_blank_lists (hsplit : rule.splitOn ':' = [a, b, c, p, x]) {fields : RuleFields}
    (h : Cli.parseRule rule = some fields) :
    (WindowsGui.isBlank a = true → fields.processName = ['*']) ∧
      (WindowsGui.isBlank b = true → fields.targetHosts = ['*']) ∧
      (WindowsGui.isBlank c = true → fields.targetPorts = ['*']) := by
  have hdefault {field : CStr} (hblank : WindowsGui.isBlank field = true) :
      Cli.defaultIfEmpty (Cli.trim field) = ['*'] := by
    rw [trim_of_isBlank hblank]
    rfl
  rw [windows_parseRule hsplit] at h
  obtain ⟨ha, hb, hc⟩ := lists_of_ruleOf h
  exact ⟨fun hblank => ha.trans (hdefault hblank), fun hblank => hb.trans (hdefault hblank),
    fun hblank => hc.trans (hdefault hblank)⟩

/-- Both command lines make the same of a rule exactly when both refuse its last two fields, or it
has five fields with nothing to be left out or trimmed. -/
theorem sameRule_iff (hfits : FitsBuffers rule) :
    SameRule rule ↔ (TokensEndInWords rule ∨ FieldsEndInWords rule → IsPlainRule rule) := by
  constructor
  · rintro ⟨hsame, -⟩ hwords
    rw [← isSome_linux_parseRule hfits.1, ← isSome_windows_parseRule, hsame, or_self] at hwords
    refine isPlainRule_of_eq hfits hsame ?_ (isSome_windows_parseRule.mp hwords)
    rwa [← isSome_linux_parseRule hfits.1, hsame]
  · intro hplain
    have hsame : Linux.Cli.parseRule rule = Cli.parseRule rule := by
      by_cases hwords : TokensEndInWords rule ∨ FieldsEndInWords rule
      · exact eq_of_isPlainRule hfits (hplain hwords) hwords
      · rw [← isSome_linux_parseRule hfits.1, ← isSome_windows_parseRule, not_or,
          Option.not_isSome_iff_eq_none, Option.not_isSome_iff_eq_none] at hwords
        rw [hwords.1, hwords.2]
    refine ⟨hsame, fun a b c p x fields hsplit hfields => ?_⟩
    exact windows_blank_lists hsplit (hsame ▸ hfields)

end Fields

/-- The rule `curl: :443:tcp:Proxy` is plain, and its hosts are everything. -/
theorem sameRule_blank_hosts : SameRule "curl: :443:tcp:Proxy".toList := by
  have hfits : FitsBuffers "curl: :443:tcp:Proxy".toList := by
    unfold FitsBuffers
    decide +kernel
  refine (sameRule_iff hfits).mpr fun _ => ?_
  exact ⟨"curl".toList, [' '], "443".toList, "tcp".toList, "Proxy".toList, by decide +kernel,
    .inr (by decide), .inl rfl, .inr (by decide), by decide, by decide⟩

/-- An empty field, a sixth field and blanks around a field are each taken by one command line
only, or differently. -/
theorem rule_strings_differ :
    (Linux.Cli.parseRule "curl::443:TCP:PROXY".toList = none ∧
      Cli.parseRule "curl::443:TCP:PROXY".toList =
        some ⟨"curl".toList, ['*'], "443".toList, .tcp, .proxy⟩) ∧
    (Linux.Cli.parseRule "curl:*:443:TCP:PROXY:BLOCK".toList =
        some ⟨"curl".toList, ['*'], "443".toList, .tcp, .proxy⟩ ∧
      Cli.parseRule "curl:*:443:TCP:PROXY:BLOCK".toList = none) ∧
    (Linux.Cli.parseRule "curl :*:443:TCP:PROXY".toList =
        some ⟨"curl ".toList, ['*'], "443".toList, .tcp, .proxy⟩ ∧
      Cli.parseRule "curl :*:443:TCP:PROXY".toList =
        some ⟨"curl".toList, ['*'], "443".toList, .tcp, .proxy⟩) := by
  decide +kernel

end ProxyTun.CommandLine
