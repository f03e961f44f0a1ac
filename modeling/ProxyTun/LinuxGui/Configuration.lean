import Mathlib.Data.List.GetD
import ProxyTun.Core.CString
import ProxyTun.Library.Lines
import ProxyTun.LinuxGui.RuleList

/-!
# The configuration of the Linux GUI

`save_config` writes the settings and the rules line by line, a rule as seven fields between bars.
Nothing is escaped. `load_config` ends each line at the first carriage return or newline.
-/
namespace ProxyTun.LinuxGui
open Library.Lines

/-- A text in an array of 256 characters. -/
abbrev CharArray := { text : CStr // text.length ≤ 255 }

/-- `strncpy` into an array whose last character is 0. -/
def copied (text : CStr) : CharArray := ⟨text.take 255, List.length_take_le 255 text⟩

structure GuiSettings where
  proxyIp : CharArray
  proxyPort : Port
  /-- `g_proxy_type`, an enumeration that `load_config` sets to any number. -/
  proxyType : ℤ
  proxyUser : CharArray
  proxyPass : CharArray
  chkLogging : Bool
  chkDns : Bool
  deriving DecidableEq

/-- The settings before `load_config`. -/
def GuiSettings.standard : GuiSettings := ⟨copied [], 0, 1, copied [], copied [], true, true⟩

/-- A rule in memory after `load_config`, with the numbers of its enumerations. -/
structure LoadedRule where
  id : BitVec 32
  protocol : ℤ
  action : ℤ
  enabled : Bool
  processName : CStr
  targetHosts : CStr
  targetPorts : CStr
  deriving DecidableEq, Repr

def protocolCode : RuleProtocol → ℕ
  | .tcp => 0
  | .udp => 1
  | .both => 2

def actionCode : RuleAction → ℕ
  | .proxy => 0
  | .direct => 1
  | .block => 2

/-- The rule as it is to be loaded. -/
def RuleData.loaded (rule : RuleData) : LoadedRule :=
  ⟨rule.id, protocolCode rule.protocol, actionCode rule.action, rule.enabled, rule.processName,
    rule.targetHosts, rule.targetPorts⟩

def flag (on : Bool) : CStr := decimal on.toNat

/-- The names in the section of the settings. -/
inductive Setting where
  | ip
  | port
  | type
  | user
  | pass
  | logging
  | dns
  deriving DecidableEq, Repr

namespace Setting

/-- The settings in the order in which they are written, and compared with a name. -/
def all : List Setting := [ip, port, type, user, pass, logging, dns]

def key : Setting → CStr
  | ip => "ip".toList
  | port => "port".toList
  | type => "type".toList
  | user => "user".toList
  | pass => "pass".toList
  | logging => "logging".toList
  | dns => "dns".toList

def value (settings : GuiSettings) : Setting → CStr
  | ip => settings.proxyIp.val
  | port => decimal settings.proxyPort.toNat
  | type => signedDecimal settings.proxyType
  | user => settings.proxyUser.val
  | pass => settings.proxyPass.val
  | logging => flag settings.chkLogging
  | dns => flag settings.chkDns

/-- What `load_config` makes of a value. On Linux `atoi` is a `strtol` that is cut down to 32
bits. -/
def set (text : CStr) (settings : GuiSettings) : Setting → GuiSettings
  | ip => { settings with proxyIp := copied text }
  | port => { settings with proxyPort := BitVec.ofInt 16 (safeAtoi text) }
  | type => { settings with proxyType := safeAtoi text }
  | user => { settings with proxyUser := copied text }
  | pass => { settings with proxyPass := copied text }
  | logging => { settings with chkLogging := safeAtoi text ≠ 0 }
  | dns => { settings with chkDns := safeAtoi text ≠ 0 }

def line (settings : GuiSettings) (setting : Setting) : CStr :=
  setting.key ++ '=' :: setting.value settings

end Setting

def ruleTexts (rule : RuleData) : CStr :=
  rule.processName ++ '|' :: (rule.targetHosts ++ '|' :: rule.targetPorts)

def ruleLine (rule : RuleData) : CStr :=
  decimal rule.id.toNat ++ '|' :: (decimal (protocolCode rule.protocol) ++
    '|' :: (decimal (actionCode rule.action) ++ '|' :: (flag rule.enabled ++
      '|' :: ruleTexts rule)))

def configLines (settings : GuiSettings) (rules : List RuleData) : List CStr :=
  "[SETTINGS]".toList :: Setting.all.map (Setting.line settings) ++
    "[RULES]".toList :: rules.map ruleLine

/-- What `save_config` writes. -/
def saveConfig (settings : GuiSettings) (rules : List RuleData) : CStr :=
  unlines '\n' (configLines settings rules)

/-- The variable `section` of `load_config`. -/
inductive Section where
  | none
  | settings
  | rules
  deriving DecidableEq, Repr

structure LoadState where
  settings : GuiSettings
  rules : List LoadedRule
  part : Section
  deriving DecidableEq

def trimLine (line : CStr) : CStr := line.takeWhile fun c => c ≠ '\r' && c ≠ '\n'

def setSetting (key text : CStr) (settings : GuiSettings) : GuiSettings :=
  match Setting.all.find? fun setting => setting.key = key with
  | some setting => setting.set text settings
  | none => settings

/-- The rule of a line with at least four fields. Fields that are missing stay null, fields behind
the seventh are not looked at. -/
def parseRule (line : CStr) : Option LoadedRule :=
  let fields := line.splitOn '|'
  let field (i : ℕ) : CStr := fields.getD i []
  if 4 ≤ fields.length then
    some ⟨BitVec.ofInt 32 (safeAtoi (field 0)), safeAtoi (field 1), safeAtoi (field 2),
      safeAtoi (field 3) ≠ 0, field 4, field 5, field 6⟩
  else none

def loadLine (s : LoadState) (line : CStr) : LoadState :=
  let line := trimLine line
  if line = [] ∨ line.head? = some '#' then s
  else if line = "[SETTINGS]".toList then { s with part := .settings }
  else if line = "[RULES]".toList then { s with part := .rules }
  else
    match s.part with
    | .none => s
    | .settings =>
      if '=' ∈ line then
        { s with
          settings := setSetting (line.takeWhile fun c => c ≠ '=')
            (line.dropWhile fun c => c ≠ '=').tail s.settings }
      else s
    | .rules => { s with rules := s.rules ++ (parseRule line).toList }

/-- `load_config` into the state before it, with a buffer for 2047 characters. -/
def loadConfig (text : CStr) : GuiSettings × List LoadedRule :=
  let s := (readLines '\n' 2047 [] text).foldl loadLine ⟨.standard, [], .none⟩
  (s.settings, s.rules)

/-- A text up to its first carriage return. -/
def cut (text : CStr) : CStr := text.takeWhile fun c => c ≠ '\r'

theorem cut_eq_self_iff {text : CStr} : cut text = text ↔ '\r' ∉ text := by
  rw [cut, List.takeWhile_eq_self_iff]
  simp only [decide_eq_true_eq]
  exact ⟨fun h hmem => h _ hmem rfl, fun h c hc hr => h (hr ▸ hc)⟩

theorem cut_append {start : CStr} (h : '\r' ∉ start) (text : CStr) :
    cut (start ++ text) = start ++ cut text := by
  apply List.takeWhile_append_of_pos
  intro c hc
  simp only [decide_eq_true_eq]
  exact fun hr => h (hr ▸ hc)

theorem trimLine_eq_cut {line : CStr} (h : '\n' ∉ line) : trimLine (line ++ ['\n']) = cut line := by
  induction line with
  | nil => rfl
  | cons c line ih =>
    obtain ⟨hc, hrest⟩ := not_or.mp (List.mem_cons.not.mp h)
    have htrim := ih hrest
    unfold trimLine cut at htrim ⊢
    rw [List.cons_append]
    by_cases hr : c = '\r'
    · simp [hr]
    · have hkeep : (c ≠ '\r' && c ≠ '\n' : Bool) = true := by simp [hr, Ne.symm hc]
      rw [List.takeWhile_cons, List.takeWhile_cons, if_pos hkeep, if_pos (by simpa using hr), htrim]

theorem safeAtoi_decimal (n : ℕ) : safeAtoi (decimal n) = narrow n := by
  rw [safeAtoi, (isNumber_decimal n).strtol_eq, digitsValue_decimal]

/-- What `strtol` reads of an unsigned number is cut down to 32 bits, and nothing else. -/
theorem safeAtoi_unsigned {n : ℕ} (h : n < 4294967296) :
    safeAtoi (decimal n) = (BitVec.ofNat 32 n).toInt := by
  rw [safeAtoi_decimal, narrow_natCast h]

theorem safeAtoi_small {n : ℕ} (h : n < 65536) : safeAtoi (decimal n) = n := by
  rw [safeAtoi_decimal, narrow_eq_self (by omega)]

theorem ofInt_safeAtoi_id (id : BitVec 32) :
    BitVec.ofInt 32 (safeAtoi (decimal id.toNat)) = id := by
  rw [safeAtoi_unsigned id.isLt, BitVec.ofInt_toInt, BitVec.ofNat_toNat, BitVec.setWidth_eq]

theorem ofInt_safeAtoi_port (port : Port) :
    BitVec.ofInt 16 (safeAtoi (decimal port.toNat)) = port := by
  rw [safeAtoi_small port.isLt, BitVec.ofInt_natCast, BitVec.ofNat_toNat, BitVec.setWidth_eq]

theorem safeAtoi_flag (on : Bool) : (safeAtoi (flag on) ≠ 0 : Bool) = on := by
  rw [flag, safeAtoi_small (by cases on <;> decide)]
  cases on <;> rfl

theorem cut_field {start : CStr} (h : '\r' ∉ start) {separator : Char} (hs : separator ≠ '\r')
    (text : CStr) : cut (start ++ separator :: text) = start ++ separator :: cut text := by
  have hboth : '\r' ∉ start ++ [separator] := by simp [h, Ne.symm hs]
  have hcut := cut_append hboth text
  rwa [List.append_assoc, List.append_assoc, List.singleton_append, List.singleton_append] at hcut

/-- A name in lower case letters. -/
structure IsKey (key : CStr) : Prop where
  nonempty : key ≠ []
  letters : ∀ c ∈ key, c.isLower = true

theorem IsKey.not_mem {key : CStr} (h : IsKey key) {c : Char} (hc : c.isLower = false) :
    c ∉ key := by
  intro hmem
  rw [h.letters c hmem] at hc
  cases hc

/-- The first character of a line decides whether it is a comment or may open a section. -/
theorem head_cases {c : Char} {line : CStr} (hcomment : c ≠ '#') (hsection : c ≠ '[') :
    ¬ (c :: line = [] ∨ (c :: line).head? = some '#') ∧ c :: line ≠ "[SETTINGS]".toList ∧
      c :: line ≠ "[RULES]".toList := by
  refine ⟨by simp [hcomment], ?_, ?_⟩
  · intro h
    exact hsection (List.cons.inj h).1
  · intro h
    exact hsection (List.cons.inj h).1

theorem Setting.isKey (setting : Setting) : IsKey setting.key := by
  cases setting <;> exact ⟨by decide, List.all_eq_true.mp (by decide)⟩

theorem Setting.find_key (setting : Setting) :
    (Setting.all.find? fun other => other.key = setting.key) = some setting := by
  cases setting <;> decide

theorem loadLine_setting {s : LoadState} (hpart : s.part = .settings) {settings : GuiSettings}
    (setting : Setting) (hline : '\n' ∉ setting.line settings) :
    loadLine s (setting.line settings ++ ['\n']) =
      { s with settings := setting.set (cut (setting.value settings)) s.settings } := by
  have hkey := setting.isKey
  have hcut : cut (setting.line settings) = setting.key ++ '=' :: cut (setting.value settings) :=
    cut_field (hkey.not_mem (by decide)) (by decide) _
  have heq : '=' ∉ setting.key := hkey.not_mem (by decide)
  have hbefore : ∀ c ∈ setting.key, (c ≠ '=' : Bool) = true := by
    intro c hc
    simp only [decide_eq_true_eq]
    exact fun h => heq (h ▸ hc)
  obtain ⟨c, cs, hcs⟩ := List.exists_cons_of_ne_nil hkey.nonempty
  have hc : c.isLower = true := hkey.letters c (hcs ▸ List.mem_cons_self)
  have hhead := @head_cases c (cs ++ '=' :: cut (setting.value settings))
    (by rintro rfl; cases hc) (by rintro rfl; cases hc)
  rw [← List.cons_append, ← hcs] at hhead
  obtain ⟨hcomment, hsettings, hrules⟩ := hhead
  unfold loadLine
  dsimp only
  rw [trimLine_eq_cut hline, hcut, hpart, if_neg hcomment, if_neg hsettings, if_neg hrules]
  dsimp only
  rw [if_pos (by simp), List.takeWhile_append_of_pos hbefore, List.dropWhile_append_of_pos hbefore,
    setSetting]
  simp [setting.find_key]

theorem load_settings {s : LoadState} (hpart : s.part = .settings) {settings : GuiSettings}
    {keys : List Setting} (hlines : ∀ setting ∈ keys, '\n' ∉ setting.line settings) :
    ((keys.map (Setting.line settings)).map fun line => line ++ ['\n']).foldl loadLine s =
      { s with settings := keys.foldl (fun loaded setting =>
        setting.set (cut (setting.value settings)) loaded) s.settings } := by
  induction keys generalizing s with
  | nil => rfl
  | cons setting keys ih =>
    obtain ⟨hline, hrest⟩ := List.forall_mem_cons.mp hlines
    simp only [List.map_cons, List.foldl_cons]
    rw [loadLine_setting hpart setting hline]
    exact ih hpart hrest

def reloadedSettings (settings : GuiSettings) : GuiSettings :=
  { settings with
    proxyIp := copied (cut settings.proxyIp.val)
    proxyUser := copied (cut settings.proxyUser.val)
    proxyPass := copied (cut settings.proxyPass.val) }

theorem cut_decimal (n : ℕ) : cut (decimal n) = decimal n :=
  cut_eq_self_iff.mpr ((isNumber_decimal n).not_mem (by decide))

theorem cut_flag (on : Bool) : cut (flag on) = flag on := cut_decimal on.toNat

theorem load_allSettings {settings : GuiSettings}
    (htype : settings.proxyType = 0 ∨ settings.proxyType = 1)
    (hlines : ∀ setting ∈ Setting.all, '\n' ∉ setting.line settings) {s : LoadState}
    (hpart : s.part = .settings) :
    ((Setting.all.map (Setting.line settings)).map fun line => line ++ ['\n']).foldl loadLine s =
      { s with settings := reloadedSettings settings } := by
  have htypeValue : safeAtoi (cut (signedDecimal settings.proxyType)) = settings.proxyType := by
    rcases htype with htype | htype <;> rw [htype] <;> decide
  have hall : (Setting.all.foldl (fun loaded setting =>
      setting.set (cut (setting.value settings)) loaded) s.settings) =
        reloadedSettings settings := by
    simp only [Setting.all, List.foldl_cons, List.foldl_nil, Setting.set, Setting.value,
      cut_decimal, cut_flag, ofInt_safeAtoi_port, htypeValue, safeAtoi_flag]
    rfl
  rw [load_settings hpart hlines, hall]

/-- The rule as it is loaded: its texts are split again, up to a carriage return. -/
def reloadedRule (rule : RuleData) : LoadedRule :=
  let fields := (cut (ruleTexts rule)).splitOn '|'
  { rule.loaded with
    processName := fields.getD 0 []
    targetHosts := fields.getD 1 []
    targetPorts := fields.getD 2 [] }

/-- The four numbers at the start of a line of a rule are read as they were written. -/
theorem parseRule_cut (rule : RuleData) :
    parseRule (cut (ruleLine rule)) = some (reloadedRule rule) := by
  have hbar (n : ℕ) : '|' ∉ decimal n := (isNumber_decimal n).not_mem (by decide)
  have hreturn (n : ℕ) : '\r' ∉ decimal n := (isNumber_decimal n).not_mem (by decide)
  unfold ruleLine flag
  rw [cut_field (hreturn _) (by decide), cut_field (hreturn _) (by decide),
    cut_field (hreturn _) (by decide), cut_field (hreturn _) (by decide)]
  unfold parseRule
  rw [List.splitOn_append_cons_self_of_not_mem (hbar _),
    List.splitOn_append_cons_self_of_not_mem (hbar _),
    List.splitOn_append_cons_self_of_not_mem (hbar _),
    List.splitOn_append_cons_self_of_not_mem (hbar _)]
  have hlength : 4 ≤ (decimal rule.id.toNat :: decimal (protocolCode rule.protocol) ::
      decimal (actionCode rule.action) :: decimal rule.enabled.toNat ::
        (cut (ruleTexts rule)).splitOn '|').length := by simp
  have hprotocol : safeAtoi (decimal (protocolCode rule.protocol)) = protocolCode rule.protocol :=
    safeAtoi_small (by cases rule.protocol <;> decide)
  have haction : safeAtoi (decimal (actionCode rule.action)) = actionCode rule.action :=
    safeAtoi_small (by cases rule.action <;> decide)
  have henabled := safeAtoi_flag rule.enabled
  rw [flag] at henabled
  dsimp only
  rw [if_pos hlength]
  simp only [List.getD_cons_zero, List.getD_cons_succ, ofInt_safeAtoi_id, hprotocol, haction,
    henabled, reloadedRule, RuleData.loaded]

theorem loadLine_rule {s : LoadState} (hpart : s.part = .rules) {rule : RuleData}
    (hline : '\n' ∉ ruleLine rule) :
    loadLine s (ruleLine rule ++ ['\n']) = { s with rules := s.rules ++ [reloadedRule rule] } := by
  have hparse := parseRule_cut rule
  obtain ⟨c, cs, hcs, hc⟩ := (isNumber_decimal rule.id.toNat).exists_cons
  have hcut : ∃ rest, cut (ruleLine rule) = c :: rest := by
    rw [ruleLine, cut_field ((isNumber_decimal _).not_mem (by decide)) (by decide), hcs]
    exact ⟨_, rfl⟩
  obtain ⟨rest, hrest⟩ := hcut
  obtain ⟨hcomment, hsettings, hrules⟩ :=
    @head_cases c rest (ne_of_isDigit hc (by decide)) (ne_of_isDigit hc (by decide))
  rw [hrest] at hparse
  unfold loadLine
  dsimp only
  rw [trimLine_eq_cut hline, hrest, hpart, if_neg hcomment, if_neg hsettings, if_neg hrules]
  dsimp only
  rw [hparse]
  rfl

theorem load_rules {s : LoadState} (hpart : s.part = .rules) {rules : List RuleData}
    (hlines : ∀ rule ∈ rules, '\n' ∉ ruleLine rule) :
    ((rules.map ruleLine).map fun line => line ++ ['\n']).foldl loadLine s =
      { s with rules := s.rules ++ rules.map reloadedRule } := by
  induction rules generalizing s with
  | nil => simp
  | cons rule rules ih =>
    obtain ⟨hline, hrest⟩ := List.forall_mem_cons.mp hlines
    simp only [List.map_cons, List.foldl_cons]
    rw [loadLine_rule hpart hline, ih (by exact hpart) hrest]
    simp

theorem loadConfig_saveConfig {settings : GuiSettings} {rules : List RuleData}
    (htype : settings.proxyType = 0 ∨ settings.proxyType = 1)
    (hlines : ∀ line ∈ configLines settings rules, '\n' ∉ line ∧ line.length < 2047) :
    loadConfig (saveConfig settings rules) =
      (reloadedSettings settings, rules.map reloadedRule) := by
  have hsettings : ∀ setting ∈ Setting.all, '\n' ∉ setting.line settings := by
    intro setting hmem
    apply (hlines _ _).1
    simp [configLines, List.mem_map_of_mem hmem]
  have hrules : ∀ rule ∈ rules, '\n' ∉ ruleLine rule := by
    intro rule hmem
    apply (hlines _ _).1
    simp [configLines, List.mem_map_of_mem hmem]
  rw [loadConfig, saveConfig, readLines_unlines hlines, configLines, List.cons_append,
    List.map_cons, List.map_append, List.map_cons, List.foldl_cons, List.foldl_append,
    List.foldl_cons]
  have hfirst : loadLine ⟨.standard, [], .none⟩ ("[SETTINGS]".toList ++ ['\n']) =
      ⟨.standard, [], .settings⟩ := rfl
  have hsecond (s : LoadState) :
      loadLine s ("[RULES]".toList ++ ['\n']) = { s with part := .rules } := rfl
  rw [hfirst, load_allSettings htype hsettings rfl, hsecond, load_rules rfl hrules]
  simp [reloadedSettings]

/-- A text without the separator of a rule and without a carriage return. -/
structure IsPlain (text : CStr) : Prop where
  noBar : '|' ∉ text
  noReturn : '\r' ∉ text

structure RuleData.IsPlain (rule : RuleData) : Prop where
  processName : LinuxGui.IsPlain rule.processName
  targetHosts : LinuxGui.IsPlain rule.targetHosts
  targetPorts : LinuxGui.IsPlain rule.targetPorts

theorem isPlain_field (line : CStr) (i : ℕ) : IsPlain (((cut line).splitOn '|').getD i []) := by
  have hmem : ∀ c ∈ ((cut line).splitOn '|').getD i [], c ≠ '|' ∧ c ∈ cut line := by
    intro c hc
    by_cases hi : i < ((cut line).splitOn '|').length
    · rw [List.getD_eq_getElem _ _ hi] at hc
      exact mem_of_mem_splitOn (List.getElem_mem hi) hc
    · rw [List.getD_eq_default _ _ (by omega)] at hc
      cases hc
  constructor
  · intro hbar
    exact (hmem _ hbar).1 rfl
  · intro hreturn
    have := List.mem_takeWhile_imp (hmem _ hreturn).2
    cases this

theorem reloadedRule_eq_iff (rule : RuleData) : reloadedRule rule = rule.loaded ↔ rule.IsPlain := by
  constructor
  · intro h
    simp only [reloadedRule, RuleData.loaded, LoadedRule.mk.injEq, true_and] at h
    obtain ⟨hprocess, hhosts, hports⟩ := h
    refine ⟨?_, ?_, ?_⟩
    · rw [← hprocess]
      exact isPlain_field _ _
    · rw [← hhosts]
      exact isPlain_field _ _
    · rw [← hports]
      exact isPlain_field _ _
  · rintro ⟨hprocess, hhosts, hports⟩
    have hcut : cut (ruleTexts rule) = ruleTexts rule := by
      rw [ruleTexts, cut_field hprocess.noReturn (by decide), cut_field hhosts.noReturn (by decide),
        cut_eq_self_iff.mpr hports.noReturn]
    rw [reloadedRule, hcut, ruleTexts, List.splitOn_append_cons_self_of_not_mem hprocess.noBar,
      List.splitOn_append_cons_self_of_not_mem hhosts.noBar,
      List.splitOn_eq_singleton hports.noBar]
    rfl

/-- A text that fits is loaded as it was if and only if it has no carriage return. -/
theorem copied_cut_eq_iff (text : CharArray) : copied (cut text.val) = text ↔ '\r' ∉ text.val := by
  have hlength : (cut text.val).length ≤ 255 :=
    (List.takeWhile_prefix _).length_le.trans text.property
  rw [← cut_eq_self_iff, Subtype.ext_iff, copied]
  dsimp only
  rw [List.take_of_length_le hlength]

theorem reloadedSettings_eq_iff (settings : GuiSettings) :
    reloadedSettings settings = settings ↔ '\r' ∉ settings.proxyIp.val ∧
      '\r' ∉ settings.proxyUser.val ∧ '\r' ∉ settings.proxyPass.val := by
  rw [← copied_cut_eq_iff, ← copied_cut_eq_iff, ← copied_cut_eq_iff]
  cases settings
  simp [reloadedSettings]

/-- Settings and rules come back from the file as they were if and only if no text has a carriage
return and no text of a rule has a bar. -/
theorem load_save_iff {settings : GuiSettings} {rules : List RuleData}
    (htype : settings.proxyType = 0 ∨ settings.proxyType = 1)
    (hlines : ∀ line ∈ configLines settings rules, '\n' ∉ line ∧ line.length < 2047) :
    loadConfig (saveConfig settings rules) = (settings, rules.map RuleData.loaded) ↔
      ('\r' ∉ settings.proxyIp.val ∧ '\r' ∉ settings.proxyUser.val ∧
        '\r' ∉ settings.proxyPass.val) ∧ ∀ rule ∈ rules, rule.IsPlain := by
  rw [loadConfig_saveConfig htype hlines, Prod.mk.injEq, reloadedSettings_eq_iff,
    List.map_inj_left]
  simp only [reloadedRule_eq_iff]

/-- A rule for a process with the given name. -/
def namedRule (name : String) : RuleData := newRow 1 (wholeProcess name) true

theorem load_save_firefox :
    loadConfig (saveConfig .standard [namedRule "firefox"]) =
      (.standard, [(namedRule "firefox").loaded]) := by
  apply (load_save_iff (.inr rfl) (by decide)).mpr
  refine ⟨by decide, ?_⟩
  intro rule hrule
  rw [List.mem_singleton.mp hrule]
  exact ⟨⟨by decide, by decide⟩, ⟨by decide, by decide⟩, ⟨by decide, by decide⟩⟩

/-- A bar in the name of a process ends the name, and its second half becomes the hosts. -/
theorem load_save_bar :
    (∀ line ∈ configLines .standard [namedRule "a|b"], '\n' ∉ line ∧ line.length < 2047) ∧
      loadConfig (saveConfig .standard [namedRule "a|b"]) =
        (.standard, [{ (namedRule "a|b").loaded with
          processName := ['a']
          targetHosts := ['b']
          targetPorts := ['*'] }]) ∧
      loadConfig (saveConfig .standard [namedRule "a|b"]) ≠
        (.standard, [(namedRule "a|b").loaded]) := by
  decide

end ProxyTun.LinuxGui
