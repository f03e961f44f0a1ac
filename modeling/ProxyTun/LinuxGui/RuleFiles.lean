import ProxyTun.Library.QuotedText
import ProxyTun.LinuxGui.SavedRules

/-!
# Rule files of the Linux GUI

An export escapes backslashes, quotation marks and newlines. An import looks for braces, and between
them for keys, colons and quotation marks, and takes what it finds as it stands.
-/
namespace ProxyTun.LinuxGui
open Library.QuotedText
open Windows (RuleFields Allocation)

def escapeChar (c : Char) : CStr :=
  if c = '\\' then ['\\', '\\']
  else if c = '"' then ['\\', '"']
  else if c = '\n' then ['\\', 'n']
  else [c]

def escapeJsonString (text : CStr) : CStr := text.flatMap escapeChar

def enabledWord (enabled : Bool) : CStr := if enabled then "true".toList else "false".toList

def ruleObject (rule : RuleData) : CStr :=
  "  \x7b\n    \"processNames\": \"".toList ++ (escapeJsonString rule.processName ++
    ("\",\n    \"targetHosts\": \"".toList ++ (escapeJsonString rule.targetHosts ++
    ("\",\n    \"targetPorts\": \"".toList ++ (escapeJsonString rule.targetPorts ++
    ("\",\n    \"protocol\": \"".toList ++ (rule.protocol.rawValue ++
    ("\",\n    \"action\": \"".toList ++ (rule.action.rawValue ++
    ("\",\n    \"enabled\": ".toList ++ (enabledWord rule.enabled ++
    "\n  \x7d".toList)))))))))))

def exportText (rules : List RuleData) : CStr :=
  "[\n".toList ++ (",\n".toList.intercalate (rules.map ruleObject) ++ "\n]\n".toList)

/-- `on_rule_export_clicked`, which writes no file without a selected rule. -/
def exportFile (rows : List RuleData) : Option CStr :=
  if rows.any RuleData.selected then some (exportText (rows.filter RuleData.selected)) else none

abbrev strstr (text key : CStr) : Option CStr := findText key text

abbrev strchr (text : CStr) (c : Char) : Option CStr := findElement c text

def extractSubJsonStr (json key : CStr) : Option CStr := do
  let k ← strstr json (quoted '"' key)
  let colon ← strchr k ':'
  let start ← strchr colon '"'
  let text := start.tail
  let _ ← strchr text '"'
  return text.takeWhile fun c => c ≠ '"'

def extractSubJsonBool (json key : CStr) : Bool :=
  ((strstr json (quoted '"' key)).bind fun k => strchr k ':').any fun colon =>
    "true".toList.isPrefixOf (skipWhitespace colon.tail)

/-- The texts from a brace up to the next closing one, where `start` has been read of the first. -/
def objects : Option CStr → CStr → List CStr
  | _, [] => []
  | none, c :: text => if c = '\x7b' then objects (some [c]) text else objects none text
  | some start, c :: text =>
    if c = '\x7d' then start :: objects none text else objects (some (start ++ [c])) text

/-- The protocol of a word, where every other word means both. -/
def protocolOf (word : CStr) : RuleProtocol :=
  if word = "TCP".toList then .tcp else if word = "UDP".toList then .udp else .both

/-- The action of a word, where every other word means the proxy. -/
def actionOf (word : CStr) : RuleAction :=
  if word = "DIRECT".toList then .direct else if word = "BLOCK".toList then .block else .proxy

/-- The rule of an object, if its five strings are found. -/
def importedRule (json : CStr) : Option ImportedRule := do
  let proc ← extractSubJsonStr json "processNames".toList
  let host ← extractSubJsonStr json "targetHosts".toList
  let port ← extractSubJsonStr json "targetPorts".toList
  let proto ← extractSubJsonStr json "protocol".toList
  let act ← extractSubJsonStr json "action".toList
  return ⟨⟨proc, host, port, protocolOf proto, actionOf act⟩,
    extractSubJsonBool json "enabled".toList⟩

/-- What `on_rule_import_clicked` finds in a file. -/
def importedRules (content : CStr) : List ImportedRule :=
  (objects none content).filterMap importedRule

/-- How the fields of an object are laid out. -/
def layout : Layout Char := ⟨':', [' '], ",\n    ".toList, by decide⟩

def stringFields (rule : RuleData) : List (CStr × CStr) :=
  [("processNames".toList, escapeJsonString rule.processName),
    ("targetHosts".toList, escapeJsonString rule.targetHosts),
    ("targetPorts".toList, escapeJsonString rule.targetPorts),
    ("protocol".toList, rule.protocol.rawValue),
    ("action".toList, rule.action.rawValue)]

def rulePieces (rule : RuleData) : List CStr :=
  "\x7b\n    ".toList :: layout.fieldPieces
    ["enabled".toList, ": ".toList ++ (enabledWord rule.enabled ++ "\n  ".toList)]
    (stringFields rule)

theorem ruleObject_eq (rule : RuleData) :
    ruleObject rule = "  ".toList ++ (joined '"' (rulePieces rule) ++ "\x7d".toList) := by
  simp only [rulePieces, stringFields, Layout.fieldPieces, joined_cons_cons, joined_singleton,
    List.append_assoc, List.cons_append]
  rfl

theorem mem_escape {c : Char} {text : CStr} (h : c ∈ escapeJsonString text) :
    c ∈ text ∨ c = '\\' ∨ c = 'n' := by
  obtain ⟨d, hd, hc⟩ := List.mem_flatMap.mp h
  unfold escapeChar at hc
  split_ifs at hc with hslash hquote hnewline
  · simp_all
  · rcases List.mem_cons.mp hc with hc | hc
    · exact .inr (.inl hc)
    · rw [List.mem_singleton.mp hc, ← hquote]
      exact .inl hd
  · simp_all
  · rw [List.mem_singleton.mp hc]
    exact .inl hd

theorem escape_eq_self_iff {text : CStr} :
    escapeJsonString text = text ↔ '\\' ∉ text ∧ '"' ∉ text ∧ '\n' ∉ text := by
  have hlength (rest : CStr) : rest.length ≤ (escapeJsonString rest).length := by
    induction rest with
    | nil => rfl
    | cons c rest ih =>
      have hc : 1 ≤ (escapeChar c).length := by
        unfold escapeChar
        split_ifs <;> simp
      rw [escapeJsonString, List.flatMap_cons, List.length_append, ← escapeJsonString,
        List.length_cons]
      omega
  induction text with
  | nil => simp [escapeJsonString]
  | cons c text ih =>
    have hcons : escapeJsonString (c :: text) = escapeChar c ++ escapeJsonString text :=
      List.flatMap_cons
    have hlong (d : Char) (hd : escapeChar c = ['\\', d]) :
        escapeJsonString (c :: text) ≠ c :: text := by
      intro h
      have hsize := congrArg List.length h
      rw [hcons, hd, List.length_append, List.length_cons, List.length_singleton,
        List.length_cons] at hsize
      have := hlength text
      omega
    by_cases hslash : c = '\\'
    · simpa [hslash] using hlong '\\' (by simp [escapeChar, hslash])
    · by_cases hquote : c = '"'
      · simpa [hquote] using hlong '"' (by simp [escapeChar, hquote])
      · by_cases hnewline : c = '\n'
        · simpa [hnewline] using hlong 'n' (by simp [escapeChar, hnewline])
        · have hsame : escapeChar c = [c] := by simp [escapeChar, hslash, hquote, hnewline]
          rw [hcons, hsame, List.singleton_append, List.cons_inj_right]
          simp [ih, Ne.symm hslash, Ne.symm hquote, Ne.symm hnewline]

section Objects
variable {start gap body text : CStr}

theorem objects_skip (h : '\x7b' ∉ gap) : objects none (gap ++ text) = objects none text := by
  induction gap with
  | nil => rfl
  | cons c gap ih =>
    obtain ⟨hc, hrest⟩ := not_or.mp (List.mem_cons.not.mp h)
    rw [List.cons_append, objects, if_neg (Ne.symm hc), ih hrest]

theorem objects_close (h : '\x7d' ∉ body) :
    objects (some start) (body ++ '\x7d' :: text) = (start ++ body) :: objects none text := by
  induction body generalizing start with
  | nil => simp [objects]
  | cons c body ih =>
    obtain ⟨hc, hrest⟩ := not_or.mp (List.mem_cons.not.mp h)
    rw [List.cons_append, objects, if_neg (Ne.symm hc), ih hrest, List.append_assoc,
      List.singleton_append]

theorem close_not_mem_objects {reading : Option CStr} (hreading : ∀ start ∈ reading, '\x7d' ∉ start)
    {json : CStr} (hjson : json ∈ objects reading text) : '\x7d' ∉ json := by
  induction text generalizing reading with
  | nil =>
    cases reading <;> cases hjson
  | cons c text ih =>
    cases reading with
    | none =>
      rw [objects] at hjson
      split_ifs at hjson with hc
      · refine ih ?_ hjson
        simp [hc]
      · exact ih (by simp) hjson
    | some start =>
      have hstart : '\x7d' ∉ start := hreading start rfl
      rw [objects] at hjson
      split_ifs at hjson with hc
      · rcases List.mem_cons.mp hjson with rfl | hjson
        · exact hstart
        · exact ih (by simp) hjson
      · refine ih ?_ hjson
        simp [hstart, Ne.symm hc]

end Objects

section Pieces
variable {key : CStr} {pieces : List CStr} {rule : RuleData}

theorem fromColon_joined (hkey : '"' ∉ key) (h : ∀ piece ∈ pieces, '"' ∉ piece) :
    ((strstr (joined '"' pieces) (quoted '"' key)).bind fun k => strchr k ':') =
      (layout.fromColon key pieces).map (joined '"') := by
  unfold strstr Layout.fromColon
  rw [findText_joined hkey h]
  cases fromKey key pieces with
  | none => rfl
  | some rest => exact findElement_joined (by decide) rest

theorem extractSubJsonStr_joined (hkey : '"' ∉ key) (h : ∀ piece ∈ pieces, '"' ∉ piece) :
    extractSubJsonStr (joined '"' pieces) key = (layout.fromColon key pieces).bind secondPiece := by
  have hassoc : extractSubJsonStr (joined '"' pieces) key =
      ((strstr (joined '"' pieces) (quoted '"' key)).bind fun k => strchr k ':').bind fun colon =>
        (strchr colon '"').bind fun start =>
          (strchr start.tail '"').bind fun _ =>
            some (start.tail.takeWhile fun d => d ≠ '"') := by
    unfold extractSubJsonStr
    rw [Option.bind_assoc]
    rfl
  rw [hassoc, fromColon_joined hkey h]
  cases hfrom : layout.fromColon key pieces with
  | none => rfl
  | some rest =>
    obtain ⟨found, hfound, hrest⟩ := Option.bind_eq_some_iff.mp hfrom
    exact between_joined (forall_mem_fromElement (forall_mem_fromKey h hfound) hrest)

/-- The texts of a rule do not contain a character. -/
structure RuleData.Avoids (rule : RuleData) (c : Char) : Prop where
  processName : c ∉ rule.processName
  targetHosts : c ∉ rule.targetHosts
  targetPorts : c ∉ rule.targetPorts

/-- A quotation mark or a closing brace in an object is from a text of the rule. -/
theorem not_mem_rulePieces {c : Char} (hc : c = '"' ∨ c = '\x7d') (h : rule.Avoids c) :
    ∀ piece ∈ rulePieces rule, c ∉ piece := by
  have hescape {text : CStr} (htext : c ∉ text) : c ∉ escapeJsonString text := by
    intro hmem
    rcases mem_escape hmem with hmem | rfl | rfl
    · exact htext hmem
    · revert hc
      decide
    · revert hc
      decide
  have hprotocol : c ∉ rule.protocol.rawValue := by
    rcases hc with rfl | rfl <;> cases rule.protocol <;> decide
  have haction : c ∉ rule.action.rawValue := by
    rcases hc with rfl | rfl <;> cases rule.action <;> decide
  have henabled : c ∉ ": ".toList ++ (enabledWord rule.enabled ++ "\n  ".toList) := by
    rcases hc with rfl | rfl <;> cases rule.enabled <;> decide
  have hwords : ∀ piece ∈ ["\x7b\n    ".toList, ": ".toList, layout.gap, "processNames".toList,
      "targetHosts".toList, "targetPorts".toList, "protocol".toList, "action".toList,
      "enabled".toList], c ∉ piece := by
    rcases hc with rfl | rfl <;> decide
  simp only [List.forall_mem_cons] at hwords
  obtain ⟨hopen, hcolon, hgap, hprocessNames, htargetHosts, htargetPorts, hprotocolKey, hactionKey,
    henabledKey, -⟩ := hwords
  refine List.forall_mem_cons.mpr ⟨hopen, Layout.forall_mem_fieldPieces hcolon hgap ?_ ?_⟩
  · simp only [List.forall_mem_cons]
    exact ⟨henabledKey, henabled, nofun⟩
  · simp only [stringFields, List.forall_mem_cons]
    exact ⟨⟨hprocessNames, hescape h.processName⟩, ⟨htargetHosts, hescape h.targetHosts⟩,
      ⟨htargetPorts, hescape h.targetPorts⟩, ⟨hprotocolKey, hprotocol⟩, ⟨hactionKey, haction⟩,
      nofun⟩

/-- The rule that is read from the object of a rule without quotation marks. A text that is a key is
taken for one. -/
def reimported (rule : RuleData) : ImportedRule :=
  let process := escapeJsonString rule.processName
  let hosts := escapeJsonString rule.targetHosts
  let ports := escapeJsonString rule.targetPorts
  { processName := process
    targetHosts := hosts
    targetPorts := if process = "targetPorts".toList then hosts else ports
    protocol := protocolOf (if process = "protocol".toList then hosts
      else if hosts = "protocol".toList then ports else rule.protocol.rawValue)
    action := actionOf (if process = "action".toList then hosts
      else if hosts = "action".toList then ports
      else if ports = "action".toList then rule.protocol.rawValue else rule.action.rawValue)
    enabled := if process = "enabled".toList then false
      else if hosts = "enabled".toList then false
      else if ports = "enabled".toList then false else rule.enabled }

theorem extract_object (h : rule.Avoids '"') (hkey : layout.IsKey key) (hquote : '"' ∉ key)
    (hlast : "enabled".toList ≠ key) :
    extractSubJsonStr (joined '"' (rulePieces rule)) key =
      Layout.lookup key (stringFields rule) := by
  have hnames : ∀ field ∈ stringFields rule, layout.colon ∉ field.1 := by
    simp only [stringFields, List.forall_mem_cons]
    exact ⟨by decide, by decide, by decide, by decide, by decide, nofun⟩
  rw [extractSubJsonStr_joined hquote (not_mem_rulePieces (.inl rfl) h), rulePieces,
    Layout.secondPiece_fromColon hkey hlast _ _ hnames]

theorem extract_enabled (h : rule.Avoids '"') :
    extractSubJsonBool (joined '"' (rulePieces rule)) "enabled".toList =
      (reimported rule).enabled := by
  have hkey : layout.IsKey "enabled".toList := ⟨by decide, by decide⟩
  have hprotocol : rule.protocol.rawValue ≠ "enabled".toList := by
    cases rule.protocol <;> decide
  have haction : rule.action.rawValue ≠ "enabled".toList := by
    cases rule.action <;> decide
  rw [extractSubJsonBool, fromColon_joined (by decide) (not_mem_rulePieces (.inl rfl) h),
    rulePieces, stringFields, reimported]
  simp only [Layout.fieldPieces]
  rw [Layout.fromColon_cons hkey (by decide),
    if_neg (show "processNames".toList ≠ "enabled".toList by decide)]
  by_cases hprocess : escapeJsonString rule.processName = "enabled".toList
  · rw [if_pos hprocess, if_pos hprocess]
    rfl
  rw [if_neg hprocess, if_neg hprocess, Layout.fromColon_cons hkey (by decide),
    if_neg (show "targetHosts".toList ≠ "enabled".toList by decide)]
  by_cases hhosts : escapeJsonString rule.targetHosts = "enabled".toList
  · rw [if_pos hhosts, if_pos hhosts]
    rfl
  rw [if_neg hhosts, if_neg hhosts, Layout.fromColon_cons hkey (by decide),
    if_neg (show "targetPorts".toList ≠ "enabled".toList by decide)]
  by_cases hports : escapeJsonString rule.targetPorts = "enabled".toList
  · rw [if_pos hports, if_pos hports]
    rfl
  rw [if_neg hports, if_neg hports, Layout.fromColon_cons hkey (by decide),
    if_neg (show "protocol".toList ≠ "enabled".toList by decide), if_neg hprotocol,
    Layout.fromColon_cons hkey (by decide),
    if_neg (show "action".toList ≠ "enabled".toList by decide), if_neg haction]
  cases rule.enabled <;> rfl

theorem importedRule_object (h : rule.Avoids '"') :
    importedRule (joined '"' (rulePieces rule)) = some (reimported rule) := by
  set process := escapeJsonString rule.processName with hprocessName
  set hosts := escapeJsonString rule.targetHosts with htargetHosts
  set ports := escapeJsonString rule.targetPorts with htargetPorts
  have hprocess : Layout.lookup "processNames".toList (stringFields rule) = some process := rfl
  have hhosts : Layout.lookup "targetHosts".toList (stringFields rule) =
      if process = "targetHosts".toList then some hosts else some hosts := rfl
  have hports : Layout.lookup "targetPorts".toList (stringFields rule) =
      if process = "targetPorts".toList then some hosts
      else if hosts = "targetPorts".toList then some ports else some ports := rfl
  have hprotocol : Layout.lookup "protocol".toList (stringFields rule) =
      if process = "protocol".toList then some hosts
      else if hosts = "protocol".toList then some ports
      else if ports = "protocol".toList then some rule.protocol.rawValue
      else some rule.protocol.rawValue := rfl
  have haction : Layout.lookup "action".toList (stringFields rule) =
      if process = "action".toList then some hosts
      else if hosts = "action".toList then some ports
      else if ports = "action".toList then some rule.protocol.rawValue
      else if rule.protocol.rawValue = "action".toList then some rule.action.rawValue
      else some rule.action.rawValue := rfl
  rw [ite_self] at hhosts
  rw [ite_self, ← apply_ite some] at hports
  rw [ite_self, ← apply_ite some, ← apply_ite some] at hprotocol
  rw [ite_self, ← apply_ite some, ← apply_ite some, ← apply_ite some] at haction
  unfold importedRule
  rw [extract_object h ⟨by decide, by decide⟩ (by decide) (by decide), hprocess,
    extract_object h ⟨by decide, by decide⟩ (by decide) (by decide), hhosts,
    extract_object h ⟨by decide, by decide⟩ (by decide) (by decide), hports,
    extract_object h ⟨by decide, by decide⟩ (by decide) (by decide), hprotocol,
    extract_object h ⟨by decide, by decide⟩ (by decide) (by decide), haction, extract_enabled h]
  rfl

end Pieces

theorem objects_ruleObject {rule : RuleData} (h : rule.Avoids '\x7d') (text : CStr) :
    objects none (ruleObject rule ++ text) =
      joined '"' (rulePieces rule) :: objects none text := by
  have hopen : joined '"' (rulePieces rule) = '\x7b' :: (joined '"' (rulePieces rule)).tail := by
    rw [rulePieces, stringFields, Layout.fieldPieces, joined_cons_cons]
    rfl
  have hclose : '\x7d' ∉ (joined '"' (rulePieces rule)).tail := by
    intro hmem
    rcases mem_joined (List.mem_of_mem_tail hmem) with hquote | ⟨piece, hpiece, hbrace⟩
    · revert hquote
      decide
    · exact not_mem_rulePieces (.inr rfl) h piece hpiece hbrace
  rw [ruleObject_eq, List.append_assoc, objects_skip (by decide), List.append_assoc, hopen,
    List.cons_append, objects, if_pos rfl]
  exact objects_close hclose

theorem objects_exportText {rules : List RuleData} (h : ∀ rule ∈ rules, rule.Avoids '\x7d') :
    objects none (exportText rules) = rules.map fun rule => joined '"' (rulePieces rule) := by
  rw [exportText, objects_skip (by decide)]
  induction rules with
  | nil => rfl
  | cons rule rules ih =>
    obtain ⟨hrule, hrest⟩ := List.forall_mem_cons.mp h
    cases rules with
    | nil =>
      rw [List.map_singleton, List.intercalate_singleton, objects_ruleObject hrule]
      rfl
    | cons next rules =>
      have hnext := ih hrest
      rw [List.map_cons] at hnext
      rw [List.map_cons, List.map_cons, List.intercalate_cons_cons, List.append_assoc,
        List.append_assoc, objects_ruleObject hrule, objects_skip (by decide), hnext]
      rfl

theorem importedRules_exportText {rules : List RuleData}
    (hquote : ∀ rule ∈ rules, rule.Avoids '"') (hbrace : ∀ rule ∈ rules, rule.Avoids '\x7d') :
    importedRules (exportText rules) = rules.map reimported := by
  rw [importedRules, objects_exportText hbrace, List.filterMap_map, ← List.filterMap_eq_map]
  apply List.filterMap_congr
  intro rule hrule
  exact importedRule_object (hquote rule hrule)

/-- A string that is found in an object ends before a quotation mark. -/
theorem avoids_extract {json key text : CStr} (h : text ∈ extractSubJsonStr json key) :
    '"' ∉ text ∧ ('\x7d' ∉ json → '\x7d' ∉ text) := by
  unfold extractSubJsonStr at h
  obtain ⟨k, hk, h⟩ := Option.bind_eq_some_iff.mp h
  obtain ⟨colon, hcolon, h⟩ := Option.bind_eq_some_iff.mp h
  obtain ⟨start, hstart, h⟩ := Option.bind_eq_some_iff.mp h
  obtain ⟨-, -, h⟩ := Option.bind_eq_some_iff.mp h
  rw [← Option.some.inj h]
  constructor
  · intro hmem
    have := List.mem_takeWhile_imp hmem
    cases this
  · intro hjson hmem
    have htail := (List.takeWhile_prefix _).subset hmem
    have hsuffix := (suffix_of_findElement hstart).trans
      ((suffix_of_findElement hcolon).trans (suffix_of_findText hk))
    exact hjson (hsuffix.subset (List.mem_of_mem_tail htail))

/-- No imported text contains a quotation mark or a closing brace. -/
theorem avoids_imported {rule : ImportedRule} {content : CStr}
    (h : rule ∈ importedRules content) {c : Char} (hc : c = '"' ∨ c = '\x7d') :
    c ∉ rule.processName ∧ c ∉ rule.targetHosts ∧ c ∉ rule.targetPorts := by
  obtain ⟨json, hjson, hrule⟩ := List.mem_filterMap.mp h
  have hbrace : '\x7d' ∉ json := close_not_mem_objects (by simp) hjson
  have hextract {key text : CStr} (htext : text ∈ extractSubJsonStr json key) : c ∉ text := by
    obtain ⟨hquote, hclose⟩ := avoids_extract htext
    rcases hc with rfl | rfl
    · exact hquote
    · exact hclose hbrace
  unfold importedRule at hrule
  obtain ⟨proc, hproc, hrule⟩ := Option.bind_eq_some_iff.mp hrule
  obtain ⟨host, hhost, hrule⟩ := Option.bind_eq_some_iff.mp hrule
  obtain ⟨port, hport, hrule⟩ := Option.bind_eq_some_iff.mp hrule
  obtain ⟨proto, -, hrule⟩ := Option.bind_eq_some_iff.mp hrule
  obtain ⟨act, -, hrule⟩ := Option.bind_eq_some_iff.mp hrule
  rw [← Option.some.inj hrule]
  exact ⟨hextract hproc, hextract hhost, hextract hport⟩

/-- A text that is neither escaped nor ends an object. -/
structure IsVerbatim (text : CStr) : Prop where
  noBackslash : '\\' ∉ text
  noQuote : '"' ∉ text
  noNewline : '\n' ∉ text
  noBrace : '\x7d' ∉ text

/-- The texts are written and read as they are, and where one of them is a key, what stands behind
it says the same as the value of the key. -/
structure RuleData.Survives (rule : RuleData) : Prop where
  processName : IsVerbatim rule.processName
  targetHosts : IsVerbatim rule.targetHosts
  targetPorts : IsVerbatim rule.targetPorts
  portsByProcess : rule.processName = "targetPorts".toList → rule.targetPorts = rule.targetHosts
  protocolByProcess : rule.processName = "protocol".toList →
    protocolOf rule.targetHosts = rule.protocol
  protocolByHosts : rule.processName ≠ "protocol".toList → rule.targetHosts = "protocol".toList →
    protocolOf rule.targetPorts = rule.protocol
  actionByProcess : rule.processName = "action".toList → actionOf rule.targetHosts = rule.action
  actionByHosts : rule.processName ≠ "action".toList → rule.targetHosts = "action".toList →
    actionOf rule.targetPorts = rule.action
  actionByPorts : rule.processName ≠ "action".toList → rule.targetHosts ≠ "action".toList →
    rule.targetPorts = "action".toList → rule.action = .proxy
  notEnabled : rule.enabled = true → rule.processName ≠ "enabled".toList ∧
    rule.targetHosts ≠ "enabled".toList ∧ rule.targetPorts ≠ "enabled".toList

def ImportedRule.content (rule : ImportedRule) : RuleFields × Bool :=
  (rule.toRuleFields, rule.enabled)

theorem protocolOf_word (protocol : RuleProtocol) :
    protocolOf protocol.rawValue = protocol := by
  cases protocol <;> rfl

theorem actionOf_word (action : RuleAction) : actionOf action.rawValue = action := by
  cases action <;> rfl

theorem actionOf_protocol (protocol : RuleProtocol) :
    actionOf protocol.rawValue = .proxy := by
  cases protocol <;> rfl

theorem IsVerbatim.escape {text : CStr} (h : IsVerbatim text) : escapeJsonString text = text :=
  escape_eq_self_iff.mpr ⟨h.noBackslash, h.noQuote, h.noNewline⟩

theorem isVerbatim_of_escape {text : CStr} (h : escapeJsonString text = text)
    (hbrace : '\x7d' ∉ text) : IsVerbatim text :=
  ⟨(escape_eq_self_iff.mp h).1, (escape_eq_self_iff.mp h).2.1, (escape_eq_self_iff.mp h).2.2,
    hbrace⟩

theorem isVerbatim_of_reimported {rule : RuleData} (hbrace : rule.Avoids '\x7d')
    (h : (reimported rule).content = rule.content) :
    IsVerbatim rule.processName ∧ IsVerbatim rule.targetHosts ∧ IsVerbatim rule.targetPorts := by
  simp only [reimported, ImportedRule.content, RuleData.content, RuleData.fields, Prod.mk.injEq,
    RuleFields.mk.injEq] at h
  obtain ⟨⟨hprocess, hhosts, hports, -⟩, -⟩ := h
  have hverbatimHosts := isVerbatim_of_escape hhosts hbrace.targetHosts
  refine ⟨isVerbatim_of_escape hprocess hbrace.processName, hverbatimHosts, ?_⟩
  split_ifs at hports with hkey
  · rw [← hports, hhosts]
    exact hverbatimHosts
  · exact isVerbatim_of_escape hports hbrace.targetPorts

theorem reimported_eq_iff {rule : RuleData} (hbrace : rule.Avoids '\x7d') :
    (reimported rule).content = rule.content ↔ rule.Survives := by
  constructor
  · intro h
    obtain ⟨hprocess, hhosts, hports⟩ := isVerbatim_of_reimported hbrace h
    simp only [reimported, ImportedRule.content, RuleData.content, RuleData.fields, Prod.mk.injEq,
      RuleFields.mk.injEq, hprocess.escape, hhosts.escape, hports.escape, true_and] at h
    obtain ⟨⟨hsame, hprotocol, haction⟩, henabled⟩ := h
    refine ⟨hprocess, hhosts, hports, ?_, ?_, ?_, ?_, ?_, ?_, ?_⟩
    · intro hkey
      rw [if_pos hkey] at hsame
      exact hsame.symm
    · intro hkey
      rwa [if_pos hkey] at hprotocol
    · intro hother hkey
      rwa [if_neg hother, if_pos hkey] at hprotocol
    · intro hkey
      rwa [if_pos hkey] at haction
    · intro hother hkey
      rwa [if_neg hother, if_pos hkey] at haction
    · intro hother hotherHosts hkey
      rw [if_neg hother, if_neg hotherHosts, if_pos hkey, actionOf_protocol] at haction
      exact haction.symm
    · intro hon
      rw [hon] at henabled
      split_ifs at henabled with hp hh ht
      exact ⟨hp, hh, ht⟩
  · intro h
    simp only [reimported, ImportedRule.content, RuleData.content, RuleData.fields, Prod.mk.injEq,
      RuleFields.mk.injEq, h.processName.escape, h.targetHosts.escape, h.targetPorts.escape,
      true_and]
    refine ⟨⟨?_, ?_, ?_⟩, ?_⟩
    · split_ifs with hkey
      · exact (h.portsByProcess hkey).symm
      · rfl
    · split_ifs with hkey hkeyHosts
      · exact h.protocolByProcess hkey
      · exact h.protocolByHosts hkey hkeyHosts
      · exact protocolOf_word rule.protocol
    · split_ifs with hkey hkeyHosts hkeyPorts
      · exact h.actionByProcess hkey
      · exact h.actionByHosts hkey hkeyHosts
      · rw [h.actionByPorts hkey hkeyHosts hkeyPorts, actionOf_protocol]
      · exact actionOf_word rule.action
    · cases hon : rule.enabled with
      | false => rw [ite_self, ite_self, ite_self]
      | true =>
        obtain ⟨hp, hh, ht⟩ := h.notEnabled hon
        rw [if_neg hp, if_neg hh, if_neg ht]

theorem RuleData.Survives.avoids {rule : RuleData} (h : rule.Survives) {c : Char}
    (hc : c = '"' ∨ c = '\x7d') : rule.Avoids c := by
  rcases hc with rfl | rfl
  · exact ⟨h.processName.noQuote, h.targetHosts.noQuote, h.targetPorts.noQuote⟩
  · exact ⟨h.processName.noBrace, h.targetHosts.noBrace, h.targetPorts.noBrace⟩

/-- A file gives back the rules that were exported if and only if each of them survives. -/
theorem importedRules_eq_iff (rules : List RuleData) :
    (importedRules (exportText rules)).map ImportedRule.content = rules.map RuleData.content ↔
      ∀ rule ∈ rules, rule.Survives := by
  have hall (hquote : ∀ rule ∈ rules, rule.Avoids '"')
      (hbrace : ∀ rule ∈ rules, rule.Avoids '\x7d') :
      (importedRules (exportText rules)).map ImportedRule.content = rules.map RuleData.content ↔
        ∀ rule ∈ rules, rule.Survives := by
    rw [importedRules_exportText hquote hbrace, List.map_map, List.map_inj_left]
    exact forall₂_congr fun rule hrule => reimported_eq_iff (hbrace rule hrule)
  constructor
  · intro h
    have havoids {c : Char} (hc : c = '"' ∨ c = '\x7d') : ∀ rule ∈ rules, rule.Avoids c := by
      intro rule hrule
      have hmem : rule.content ∈ (importedRules (exportText rules)).map ImportedRule.content :=
        h ▸ List.mem_map_of_mem hrule
      obtain ⟨found, hfound, hcontent⟩ := List.mem_map.mp hmem
      have hfields : found.toRuleFields = rule.fields := congrArg Prod.fst hcontent
      obtain ⟨hprocess, hhosts, hports⟩ := avoids_imported hfound hc
      rw [hfields] at hprocess hhosts hports
      exact ⟨hprocess, hhosts, hports⟩
    exact (hall (havoids (.inl rfl)) (havoids (.inr rfl))).mp h
  · intro h
    exact (hall (fun rule hrule => (h rule hrule).avoids (.inl rfl))
      (fun rule hrule => (h rule hrule).avoids (.inr rfl))).mpr h

theorem content_importFrom (store : Windows.RuleStore) (found : List (ImportedRule × Allocation)) :
    (importFrom store found).2.map RuleData.content =
      (found.map Prod.fst).map ImportedRule.content := by
  induction found generalizing store with
  | nil => rfl
  | cons rule found ih =>
    simp only [importFrom, List.map_cons, ih]
    rfl

namespace GuiState

/-- An import of the file with the selected rules adds these rules if and only if each of them
survives. -/
theorem import_export_iff {rows : List RuleData} {text : CStr}
    (hexport : exportFile rows = some text) (s : GuiState)
    {found : List (ImportedRule × Allocation)}
    (hfound : found.map Prod.fst = importedRules text) :
    (s.importRules found).rules.map RuleData.content =
        s.rules.map RuleData.content ++ (rows.filter RuleData.selected).map RuleData.content ↔
      ∀ rule ∈ rows, rule.selected = true → rule.Survives := by
  unfold exportFile at hexport
  split_ifs at hexport
  rw [← Option.some.inj hexport] at hfound
  simp only [importRules, List.map_append]
  rw [List.append_cancel_left_eq, content_importFrom, hfound, importedRules_eq_iff]
  simp only [List.mem_filter, and_imp]

/-- A selected rule for a process with the given name. -/
def selectedRule (name : String) : RuleData :=
  { newRow 1 (wholeProcess name) true with selected := true }

/-- The rules that an import finds in an exported file, each of which the engine takes. -/
def foundIn (rows : List RuleData) : List (ImportedRule × Allocation) :=
  (importedRules (exportText rows)).map fun rule => (rule, .succeeds)

theorem fst_foundIn (rows : List RuleData) :
    (foundIn rows).map Prod.fst = importedRules (exportText rows) := by
  rw [foundIn, List.map_map]
  exact List.map_id _

theorem import_export_firefox :
    ((atStartup true []).importRules (foundIn [selectedRule "firefox"])).rules.map
      RuleData.content = [(wholeProcess "firefox", true)] := by
  have hexport : exportFile [selectedRule "firefox"] = some (exportText [selectedRule "firefox"]) :=
    rfl
  apply (import_export_iff hexport (atStartup true []) (fst_foundIn _)).mpr
  intro rule hrule _
  rw [List.mem_singleton.mp hrule]
  have hstar : IsVerbatim ['*'] := ⟨by decide, by decide, by decide, by decide⟩
  exact ⟨⟨by decide, by decide, by decide, by decide⟩, hstar, hstar, by decide, by decide,
    by decide, by decide, by decide, by decide, by decide⟩

/-- A quotation mark in the name of a process is escaped, and ends the name when it is read. -/
theorem import_export_quote :
    exportFile [selectedRule "a\"b"] = some (exportText [selectedRule "a\"b"]) ∧
      ((atStartup true []).importRules (foundIn [selectedRule "a\"b"])).rules.map
        RuleData.content = [(wholeProcess "a\\", true)] ∧
      wholeProcess "a\\" ≠ wholeProcess "a\"b" := by
  decide +kernel

end GuiState

end ProxyTun.LinuxGui
