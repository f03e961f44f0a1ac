import ProxyTun.MacOS.FlowHandling

/-!
# The settings of the proxy

A form of the application builds the configuration of the proxy, which is kept in the user defaults
and sent to the extension, at once if there is a session and when the tunnel is started.
-/
namespace ProxyTun.MacOS
open Library Transition

def integer (text : CStr) : Option ℤ :=
  match text with
  | '+' :: digits => ((digitsNumber digits).filter fun n => n < 2 ^ 63).map Int.ofNat
  | '-' :: digits => ((digitsNumber digits).filter fun n => n ≤ 2 ^ 63).map fun n => -(n : ℤ)
  | digits => ((digitsNumber digits).filter fun n => n < 2 ^ 63).map Int.ofNat

/-- `split(separator: ".")`, which leaves empty parts out. -/
def splitDots (text : CStr) : List CStr := (components ['.'] text).filter fun part => part ≠ []

def isValidIPv4 (ip : CStr) : Bool :=
  let parts := splitDots ip
  decide (parts.length = 4) &&
    parts.all fun part => (integer part).any fun num => decide (0 ≤ num) && decide (num ≤ 255)

def isValidIPv6 (ip : CStr) : Bool :=
  (ip.all fun c => "0123456789abcdefABCDEF:".toList.contains c) && ip.contains ':'

def isAlphanumeric (c : Char) : Bool :=
  isDigit c || ('a' ≤ c && c ≤ 'z') || ('A' ≤ c && c ≤ 'Z')

/-- A part of `domainPattern`: letters and digits, with dashes between them. -/
def isDomainLabel (label : CStr) : Bool :=
  decide (label.length ≤ 63) && label.head?.any isAlphanumeric &&
    label.getLast?.any isAlphanumeric && label.all fun c => isAlphanumeric c || c = '-'

def isValidDomain (domain : CStr) : Bool :=
  ((components ['.'] domain).all isDomainLabel) || domain = "localhost".toList

def isValidHost (host : CStr) : Bool := isValidIPv4 host || isValidIPv6 host || isValidDomain host

/-- The fields of the form. -/
structure ProxySettingsForm where
  proxyType : CStr
  proxyHost : CStr
  proxyPort : CStr
  username : CStr
  password : CStr
  deriving DecidableEq, Repr

def invalidHost : CStr := "Invalid proxy IP or domain.".toList

def invalidNumber : CStr := "Port must be a valid number.".toList

def invalidPort : CStr := "Port must be between 1 and 65535.".toList

namespace ProxySettingsForm

def load : Option ProxyConfig → ProxySettingsForm
  | some config => ⟨config.proxyType, config.proxyHost, signedDecimal config.proxyPort,
    config.proxyUsername.getD [], config.proxyPassword.getD []⟩
  | none => ⟨[], [], [], [], []⟩

def validate (form : ProxySettingsForm) : CStr :=
  if form.proxyHost ≠ [] && !isValidHost form.proxyHost then invalidHost
  else if form.proxyPort ≠ [] then
    match integer form.proxyPort with
    | none => invalidNumber
    | some port =>
      if 1 ≤ port ∧ port ≤ 65535 then [] else invalidPort
  else []

def isSaveDisabled (form : ProxySettingsForm) : Bool :=
  form.proxyType = [] || form.proxyHost = [] || form.proxyPort = [] || form.validate ≠ []

def given (text : CStr) : Option CStr := if text = [] then none else some text

def buildConfig (form : ProxySettingsForm) : Option ProxyConfig :=
  if form.validate = [] then
    (integer form.proxyPort).map fun port =>
      ⟨form.proxyType, form.proxyHost, port, given form.username, given form.password⟩
  else none

end ProxySettingsForm

abbrev ProxyDefaults := ProxyVariables

def loadProxyConfig (defaults : ProxyDefaults) : Option ProxyConfig := do
  let type ← defaults.proxyType
  let host ← defaults.proxyHost
  let port ← defaults.proxyPort
  some ⟨type, host, port, defaults.proxyUsername, defaults.proxyPassword⟩

def saveProxyConfig (config : ProxyConfig) : List (ProxyDefaults → ProxyDefaults) :=
  [fun defaults => { defaults with proxyType := some config.proxyType },
    fun defaults => { defaults with proxyHost := some config.proxyHost },
    fun defaults => { defaults with proxyPort := some config.proxyPort },
    fun defaults => { defaults with proxyUsername := config.proxyUsername },
    fun defaults => { defaults with proxyPassword := config.proxyPassword }]

/-- The message of `sendProxyConfigToExtension`. -/
def ProxyConfig.message (config : ProxyConfig) : Message :=
  [("action".toList, .string "setProxyConfig".toList),
    ("proxyType".toList, .string config.proxyType), ("proxyHost".toList, .string config.proxyHost),
    ("proxyPort".toList, .number config.proxyPort)] ++
  (config.proxyUsername.map fun text => ("proxyUsername".toList, Json.string text)).toList ++
  (config.proxyPassword.map fun text => ("proxyPassword".toList, Json.string text)).toList

/-- A configuration that `setProxyConfig` saves, and how many defaults are set. -/
structure Saving where
  config : ProxyConfig
  written : ℕ
  deriving DecidableEq, Repr

/-- The application and the extension, with the messages on their way. -/
structure Settings where
  proxyConfig : Option ProxyConfig
  defaults : ProxyDefaults
  /-- The call of `setProxyConfig` that the main thread is in. -/
  saving : Option Saving
  /-- `tunnelSession` is not `nil`. -/
  hasSession : Bool
  /-- What the timers of started tunnels have read and not sent yet. -/
  read : List ProxyConfig
  channel : List Message
  provider : Provider

inductive SettingsLabel where
  /-- The button of the form, unless it is disabled. -/
  | save (form : ProxySettingsForm)
  /-- The next assignment of `saveProxyConfig`. -/
  | write
  /-- The end of `setProxyConfig`. -/
  | sendSaved
  /-- The application, in whatever it is, is ended and started again. -/
  | relaunch
  /-- A tunnel comes or goes. -/
  | session (hasSession : Bool)
  /-- The timer of `startTunnel` reads the configuration, on a queue of its own. -/
  | configure
  /-- It sends the one at a place of those that are read. -/
  | sendRead (i : ℕ)
  /-- A message that sets no configuration. -/
  | send (m : Message)
  | deliver
  /-- The first message does not arrive. -/
  | lose
  /-- The process of the extension is started again. -/
  | restart

def clearRulesMessage : Message := [("action".toList, .string "clearRules".toList)]

namespace Settings

/-- The application as it starts, with what is in the user defaults. -/
def launched (defaults : ProxyDefaults) : Settings :=
  ⟨loadProxyConfig defaults, defaults, none, false, [], [], .launched⟩

/-- `setProxyConfig` of the application is done with the user defaults. -/
def sendSaved (s : Settings) (config : ProxyConfig) : Settings :=
  { s with
    saving := none
    channel := if s.hasSession then s.channel ++ [config.message] else s.channel }

def step (sys : ProviderSystem) (s : Settings) : SettingsLabel → Option Settings
  | .save form =>
    if form.isSaveDisabled || s.saving.isSome then none
    else form.buildConfig.map fun config =>
      { s with proxyConfig := some config, saving := some ⟨config, 0⟩ }
  | .write =>
    s.saving.bind fun saving =>
      (saveProxyConfig saving.config)[saving.written]?.map fun write =>
        { s with
          defaults := write s.defaults
          saving := some ⟨saving.config, saving.written + 1⟩ }
  | .sendSaved =>
    s.saving.bind fun saving =>
      if saving.written = (saveProxyConfig saving.config).length then
        some (s.sendSaved saving.config)
      else none
  | .relaunch =>
    some { s with
      proxyConfig := loadProxyConfig s.defaults
      saving := none
      hasSession := false
      read := [] }
  | .session hasSession => some { s with hasSession := hasSession }
  | .configure => s.proxyConfig.map fun config => { s with read := s.read ++ [config] }
  | .sendRead i =>
    s.read[i]?.map fun config =>
      { s with read := s.read.eraseIdx i, channel := s.channel ++ [config.message] }
  | .send m =>
    if messageAction m = some "setProxyConfig".toList then none
    else some { s with channel := s.channel ++ [m] }
  | .deliver =>
    match s.channel with
    | [] => none
    | m :: channel =>
      (s.provider.handleAppMessage sys m).map fun provider =>
        { s with channel := channel, provider := provider }
  | .lose => if s.channel = [] then none else some { s with channel := s.channel.tail }
  | .restart => some { s with channel := [], provider := .launched }

end Settings

section Form

theorem digitsNumber_decimal (n : ℕ) : digitsNumber (decimal n) = some n := by
  have hdecimal := isNumber_decimal n
  rw [digitsNumber, if_pos ⟨hdecimal.nonempty, List.all_eq_true.mpr hdecimal.digits⟩,
    digitsValue_decimal]

theorem integer_decimal {n : ℕ} (h : n < 2 ^ 63) : integer (decimal n) = some (n : ℤ) := by
  have hdecimal := isNumber_decimal n
  have hdigits := digitsNumber_decimal n
  generalize decimal n = text at hdecimal hdigits
  unfold integer
  split
  · exact absurd rfl (ne_of_isDigit (hdecimal.digits _ List.mem_cons_self) (by decide))
  · exact absurd rfl (ne_of_isDigit (hdecimal.digits _ List.mem_cons_self) (by decide))
  · rw [hdigits, Option.filter_some, if_pos (by simpa using h)]
    rfl

theorem integer_signedDecimal {port : ℤ} (hlow : 1 ≤ port) (hhigh : port ≤ 65535) :
    integer (signedDecimal port) = some port := by
  obtain ⟨n, rfl⟩ := Int.eq_ofNat_of_zero_le (by omega : 0 ≤ port)
  exact integer_decimal (by omega)

namespace ProxySettingsForm

variable {form : ProxySettingsForm} {config : ProxyConfig}

theorem getD_given (text : CStr) : (given text).getD [] = text := by
  unfold given
  split_ifs with h
  · exact h.symm
  · rfl

theorem given_given (text : CStr) : given ((given text).getD []) = given text := by
  rw [getD_given]

theorem buildConfig_eq_some (h : form.buildConfig = some config) :
    form.validate = [] ∧ integer form.proxyPort = some config.proxyPort ∧
      config = ⟨form.proxyType, form.proxyHost, config.proxyPort, given form.username,
        given form.password⟩ := by
  rw [buildConfig] at h
  obtain ⟨hvalid, hmap⟩ := Option.ite_none_right_eq_some.mp h
  obtain ⟨port, hport, rfl⟩ := Option.map_eq_some_iff.mp hmap
  exact ⟨hvalid, hport, rfl⟩

theorem validate_eq_nil_iff :
    form.validate = [] ↔ (form.proxyHost = [] ∨ isValidHost form.proxyHost = true) ∧
      (form.proxyPort = [] ∨ ∃ port, integer form.proxyPort = some port ∧ 1 ≤ port ∧
        port ≤ 65535) := by
  unfold validate
  by_cases hhost : form.proxyHost = [] ∨ isValidHost form.proxyHost = true
  · rw [if_neg (by simpa [imp_iff_not_or] using hhost), and_iff_right hhost]
    by_cases hport : form.proxyPort = []
    · rw [if_neg (not_not.mpr hport)]
      exact iff_of_true rfl (.inl hport)
    · rw [if_pos hport, or_iff_right hport]
      cases hread : integer form.proxyPort with
      | none => exact iff_of_false (by decide) (by simp)
      | some port =>
        by_cases hrange : 1 ≤ port ∧ port ≤ 65535
        · exact iff_of_true (if_pos hrange) ⟨port, rfl, hrange⟩
        · refine iff_of_false ?_ fun ⟨port', hport', hrange'⟩ => hrange ?_
          · change (if _ then _ else _) ≠ []
            rw [if_neg hrange]
            decide
          · obtain rfl := Option.some.inj hport'
            exact hrange'
  · rw [if_pos (by simpa [not_or] using hhost)]
    exact iff_of_false (by decide) fun h => hhost h.1

theorem port_of_buildConfig (h : form.buildConfig = some config) :
    1 ≤ config.proxyPort ∧ config.proxyPort ≤ 65535 := by
  obtain ⟨hvalid, hport, -⟩ := buildConfig_eq_some h
  rcases (validate_eq_nil_iff.mp hvalid).2 with hempty | ⟨port, hread, hrange⟩
  · rw [hempty] at hport
    cases hport
  · obtain rfl := Option.some.inj (hread.symm.trans hport)
    exact hrange

/-- A configuration that the form has built is shown as it is, and built again. -/
theorem buildConfig_load (h : form.buildConfig = some config) :
    (load (some config)).buildConfig = some config := by
  obtain ⟨hvalid, -, hconfig⟩ := buildConfig_eq_some h
  obtain ⟨hlow, hhigh⟩ := port_of_buildConfig h
  have hread := integer_signedDecimal hlow hhigh
  have hshown : (load (some config)).validate = [] := by
    refine validate_eq_nil_iff.mpr ⟨?_, .inr ⟨config.proxyPort, hread, hlow, hhigh⟩⟩
    rw [hconfig]
    exact (validate_eq_nil_iff.mp hvalid).1
  rw [buildConfig, if_pos hshown]
  change (integer (signedDecimal config.proxyPort)).map _ = _
  rw [hread, Option.map_some, hconfig]
  simp only [load, given_given]

end ProxySettingsForm

end Form

section Messages

variable (sys : ProviderSystem)

/-- The extension reads the ports that the form lets through. -/
def ReadsPorts : Prop := ∀ port : ℤ, 1 ≤ port → port ≤ 65535 → sys.asInt (.number port) = some port

theorem config_message {sys : ProviderSystem} {config : ProxyConfig}
    (h : sys.asInt (.number config.proxyPort) = some config.proxyPort) :
    config.message.config sys = some config := by
  rcases config with ⟨type, host, port, username, password⟩
  have haction : messageAction (ProxyConfig.message ⟨type, host, port, username, password⟩) =
      some "setProxyConfig".toList := rfl
  rw [Message.config, if_pos haction]
  have hport : ((ProxyConfig.message ⟨type, host, port, username, password⟩).lookup
      "proxyPort".toList).bind sys.asInt = some port := h
  rw [proxyConfig, hport]
  cases username <;> cases password <;> rfl

theorem config_of_action {m : Message} (h : messageAction m ≠ some "setProxyConfig".toList) :
    m.config sys = none := if_neg h

end Messages

section Writes

variable {config : ProxyConfig} {defaults : ProxyDefaults}

def writeDefaults (config : ProxyConfig) (written : ℕ) (defaults : ProxyDefaults) : ProxyDefaults :=
  ((saveProxyConfig config).take written).foldl (fun defaults write => write defaults) defaults

theorem writeDefaults_succ {written : ℕ} {write : ProxyDefaults → ProxyDefaults}
    (h : (saveProxyConfig config)[written]? = some write) :
    writeDefaults config (written + 1) defaults =
      write (writeDefaults config written defaults) := by
  rw [writeDefaults, List.take_add_one, h, List.foldl_append]
  rfl

theorem writeDefaults_length :
    writeDefaults config (saveProxyConfig config).length defaults = config.variables := rfl

theorem loadProxyConfig_variables : loadProxyConfig config.variables = some config := rfl

theorem variables_of_loadProxyConfig (h : loadProxyConfig defaults = some config) :
    defaults = config.variables := by
  rcases defaults with ⟨_ | type, _ | host, _ | port, username, password⟩
  case some.some.some =>
    obtain rfl := Option.some.inj h
    rfl
  all_goals cases h

end Writes

namespace Settings

variable {sys : ProviderSystem} {D : ProxyVariables → Prop} {s t : Settings}

/-- What the application, the user defaults and the extension have is as `D` says. -/
structure Holds (D : ProxyVariables → Prop) (s : Settings) : Prop where
  app : ∀ config, s.proxyConfig = some config → D config.variables
  stored : s.saving = none → D s.defaults
  provider : D s.provider.proxy

/-- The same of what is read and on its way, and the user defaults are those of the application, as
far as a save is done with them. -/
structure Unmixed (sys : ProviderSystem) (D : ProxyVariables → Prop) (s : Settings) : Prop
    extends Holds D s where
  loads : s.saving = none → loadProxyConfig s.defaults = s.proxyConfig
  saving : ∀ saving, s.saving = some saving → s.proxyConfig = some saving.config ∧
    ∃ old, D old ∧ s.defaults = writeDefaults saving.config saving.written old
  read : ∀ config ∈ s.read, D config.variables
  channel : ∀ m ∈ s.channel, ∀ config, m.config sys = some config → D config.variables

def Saves (D : ProxyVariables → Prop) : SettingsLabel → Prop
  | .save form =>
    form.isSaveDisabled = false → ∀ config, form.buildConfig = some config → D config.variables
  | _ => True

theorem Unmixed.withChannel (h : s.Unmixed sys D) {channel : List Message}
    (hchannel : ∀ m ∈ channel,
      m ∈ s.channel ∨ ∀ config, m.config sys = some config → D config.variables) :
    Unmixed sys D { s with channel := channel } where
  toHolds := ⟨h.app, h.stored, h.provider⟩
  loads := h.loads
  saving := h.saving
  read := h.read
  channel m hm := by
    rcases hchannel m hm with hold | hnew
    · exact h.channel m hold
    · exact hnew

theorem Unmixed.send (h : s.Unmixed sys D) {m : Message}
    (hm : ∀ config, m.config sys = some config → D config.variables) :
    Unmixed sys D { s with channel := s.channel ++ [m] } := by
  refine h.withChannel fun m' hm' => ?_
  rcases List.mem_append.mp hm' with hold | hnew
  · exact .inl hold
  · obtain rfl := List.mem_singleton.mp hnew
    exact .inr hm

/-- What one step preserves, if a new launch finds user defaults that are as `D` says. -/
theorem Unmixed.step
    (hreads : ∀ config : ProxyConfig, D config.variables →
      sys.asInt (.number config.proxyPort) = some config.proxyPort) (hunset : D .unset)
    (h : s.Unmixed sys D) {label : SettingsLabel} (hlabel : Saves D label)
    (hlaunch : label = .relaunch → D s.defaults) (hstep : Settings.step sys s label = some t) :
    t.Unmixed sys D := by
  have hmessage : ∀ config : ProxyConfig, D config.variables → ∀ config',
      config.message.config sys = some config' → D config'.variables := by
    intro config hconfig config' hread
    rw [config_message (hreads config hconfig)] at hread
    obtain rfl := Option.some.inj hread
    exact hconfig
  cases label with
  | save form =>
    obtain ⟨hfree, hbuild⟩ := Option.ite_none_left_eq_some.mp hstep
    obtain ⟨config, hconfig, rfl⟩ := Option.map_eq_some_iff.mp hbuild
    obtain ⟨henabled, hidle⟩ : form.isSaveDisabled = false ∧ s.saving = none := by
      simpa using hfree
    refine ⟨⟨fun config' hsome => ?_, fun hnone => (by cases hnone), h.provider⟩,
      fun hnone => (by cases hnone), fun saving hsaving => ?_, h.read, h.channel⟩
    · obtain rfl := Option.some.inj hsome
      exact hlabel henabled config hconfig
    · obtain rfl := Option.some.inj hsaving
      exact ⟨rfl, s.defaults, h.stored hidle, rfl⟩
  | write =>
    obtain ⟨saving, hsaving, hwrite⟩ := Option.bind_eq_some_iff.mp hstep
    obtain ⟨write, hget, rfl⟩ := Option.map_eq_some_iff.mp hwrite
    obtain ⟨happ, old, hold, hdefaults⟩ := h.saving saving hsaving
    refine ⟨⟨h.app, fun hnone => (by cases hnone), h.provider⟩,
      fun hnone => (by cases hnone), fun saving' hsaving' => ?_, h.read, h.channel⟩
    obtain rfl := Option.some.inj hsaving'
    refine ⟨happ, old, hold, ?_⟩
    rw [writeDefaults_succ hget, ← hdefaults]
  | sendSaved =>
    obtain ⟨saving, hsaving, hdone⟩ := Option.bind_eq_some_iff.mp hstep
    obtain ⟨hwritten, hsend⟩ := Option.ite_none_right_eq_some.mp hdone
    obtain rfl := Option.some.inj hsend
    obtain ⟨happ, old, -, hdefaults⟩ := h.saving saving hsaving
    have hD := h.app saving.config happ
    rw [hwritten, writeDefaults_length] at hdefaults
    have hsaved : Unmixed sys D { s with saving := none } := by
      refine ⟨⟨h.app, fun _ => ?_, h.provider⟩, fun _ => ?_, fun saving' hsaving' =>
        (by cases hsaving'), h.read, h.channel⟩
      · exact hdefaults ▸ hD
      · exact (congrArg loadProxyConfig hdefaults).trans (loadProxyConfig_variables.trans happ.symm)
    unfold Settings.sendSaved
    split_ifs
    · exact hsaved.send (hmessage saving.config hD)
    · exact hsaved
  | relaunch =>
    obtain rfl := Option.some.inj hstep
    refine ⟨⟨fun config hload => ?_, fun _ => hlaunch rfl, h.provider⟩, fun _ => rfl,
      fun saving hsaving => (by cases hsaving), fun config hconfig => absurd hconfig
      List.not_mem_nil, h.channel⟩
    exact variables_of_loadProxyConfig hload ▸ hlaunch rfl
  | session hasSession =>
    obtain rfl := Option.some.inj hstep
    exact ⟨⟨h.app, h.stored, h.provider⟩, h.loads, h.saving, h.read, h.channel⟩
  | configure =>
    obtain ⟨config, hconfig, rfl⟩ := Option.map_eq_some_iff.mp hstep
    refine ⟨⟨h.app, h.stored, h.provider⟩, h.loads, h.saving, fun config' hconfig' => ?_, h.channel⟩
    rcases List.mem_append.mp hconfig' with hold | hnew
    · exact h.read config' hold
    · obtain rfl := List.mem_singleton.mp hnew
      exact h.app config' hconfig
  | sendRead i =>
    obtain ⟨config, hconfig, rfl⟩ := Option.map_eq_some_iff.mp hstep
    have hread := h.read config (List.mem_of_getElem? hconfig)
    have hsent := h.send (hmessage config hread)
    exact ⟨⟨h.app, h.stored, h.provider⟩, h.loads, h.saving,
      fun config' hconfig' => h.read config' (List.mem_of_mem_eraseIdx hconfig'), hsent.channel⟩
  | send m =>
    obtain ⟨haction, hsend⟩ := Option.ite_none_left_eq_some.mp hstep
    obtain rfl := Option.some.inj hsend
    refine h.send fun config hread => ?_
    rw [config_of_action sys haction] at hread
    cases hread
  | deliver =>
    rw [Settings.step] at hstep
    cases hchannel : s.channel with
    | nil =>
      rw [hchannel] at hstep
      cases hstep
    | cons m channel =>
      rw [hchannel] at hstep
      obtain ⟨provider, hhandle, rfl⟩ := Option.map_eq_some_iff.mp hstep
      refine ⟨⟨h.app, h.stored, ?_⟩, h.loads, h.saving, h.read,
        fun m' hm' => h.channel m' (by simp [hchannel, hm'])⟩
      rw [handleAppMessage_proxy sys hhandle]
      cases hconfig : m.config sys with
      | none => exact h.provider
      | some config => exact h.channel m (by simp [hchannel]) config hconfig
  | lose =>
    obtain ⟨-, hlose⟩ := Option.ite_none_left_eq_some.mp hstep
    obtain rfl := Option.some.inj hlose
    exact h.withChannel fun m hm => .inl (List.mem_of_mem_tail hm)
  | restart =>
    obtain rfl := Option.some.inj hstep
    exact ⟨⟨h.app, h.stored, hunset⟩, h.loads, h.saving, h.read,
      fun m hm => absurd hm List.not_mem_nil⟩

theorem unmixed_launched (hunset : D .unset) : (launched .unset).Unmixed sys D :=
  ⟨⟨fun config hsome => (by cases hsome), fun _ => hunset, hunset⟩, fun _ => rfl,
    fun saving hsaving => (by cases hsaving), fun config hconfig => absurd hconfig List.not_mem_nil,
    fun m hm => absurd hm List.not_mem_nil⟩

/-- The button of a form has built the configuration. -/
def Built (labels : List SettingsLabel) (config : ProxyConfig) : Prop :=
  ∃ form, .save form ∈ labels ∧ form.isSaveDisabled = false ∧ form.buildConfig = some config

/-- No configuration, or all of one that a form has built. -/
def Whole (labels : List SettingsLabel) (vars : ProxyVariables) : Prop :=
  vars = .unset ∨ ∃ config, vars = config.variables ∧ Built labels config

def FieldBuilt {α : Type} (labels : List SettingsLabel) (field : ProxyVariables → Option α)
    (vars : ProxyVariables) : Prop :=
  ∀ x, field vars = some x → ∃ config, Built labels config ∧ field config.variables = some x

/-- Each field by itself comes from a form. -/
structure Pieced (labels : List SettingsLabel) (vars : ProxyVariables) : Prop where
  proxyType : FieldBuilt labels ProxyVariables.proxyType vars
  proxyHost : FieldBuilt labels ProxyVariables.proxyHost vars
  proxyPort : FieldBuilt labels ProxyVariables.proxyPort vars
  proxyUsername : FieldBuilt labels ProxyVariables.proxyUsername vars
  proxyPassword : FieldBuilt labels ProxyVariables.proxyPassword vars

variable {labels : List SettingsLabel} {config : ProxyConfig}

theorem Whole.pieced {vars : ProxyVariables} (h : Whole labels vars) :
    Pieced labels vars := by
  rcases h with rfl | ⟨config, rfl, hbuilt⟩
  · constructor <;> intro x hx <;> cases hx
  · exact ⟨fun _ hx => ⟨config, hbuilt, hx⟩, fun _ hx => ⟨config, hbuilt, hx⟩,
      fun _ hx => ⟨config, hbuilt, hx⟩, fun _ hx => ⟨config, hbuilt, hx⟩,
      fun _ hx => ⟨config, hbuilt, hx⟩⟩

theorem Pieced.write {defaults : ProxyDefaults} (hconfig : Pieced labels config.variables)
    (hdefaults : Pieced labels defaults) :
    ∀ write ∈ saveProxyConfig config, Pieced labels (write defaults) := by
  intro write hwrite
  simp only [saveProxyConfig, List.mem_cons, List.not_mem_nil, or_false] at hwrite
  rcases hwrite with rfl | rfl | rfl | rfl | rfl
  · exact { hdefaults with proxyType := hconfig.proxyType }
  · exact { hdefaults with proxyHost := hconfig.proxyHost }
  · exact { hdefaults with proxyPort := hconfig.proxyPort }
  · exact { hdefaults with proxyUsername := hconfig.proxyUsername }
  · exact { hdefaults with proxyPassword := hconfig.proxyPassword }

theorem Pieced.writeDefaults {defaults : ProxyDefaults} (hconfig : Pieced labels config.variables)
    (hdefaults : Pieced labels defaults) (written : ℕ) :
    Pieced labels (writeDefaults config written defaults) := by
  induction written with
  | zero => exact hdefaults
  | succ written ih =>
    cases hget : (saveProxyConfig config)[written]? with
    | none =>
      rw [ProxyTun.MacOS.writeDefaults, List.take_add_one, hget, Option.toList_none,
        List.append_nil]
      exact ih
    | some write =>
      rw [writeDefaults_succ hget]
      exact hconfig.write ih write (List.mem_of_getElem? hget)

theorem ports_of_built (h : Built labels config) :
    1 ≤ config.proxyPort ∧ config.proxyPort ≤ 65535 := by
  obtain ⟨form, -, -, hbuild⟩ := h
  exact ProxySettingsForm.port_of_buildConfig hbuild

theorem Pieced.ports {vars : ProxyVariables} (h : Pieced labels vars) {port : ℤ}
    (hport : vars.proxyPort = some port) : 1 ≤ port ∧ port ≤ 65535 := by
  obtain ⟨config, hbuilt, hconfig⟩ := h.proxyPort port hport
  obtain rfl := Option.some.inj hconfig
  exact ports_of_built hbuilt

theorem whole_of_save {label : SettingsLabel} (hmem : label ∈ labels) :
    Saves (Whole labels) label := by
  cases label with
  | save form =>
    exact fun henabled config hbuild => .inr ⟨config, rfl, form, hmem, henabled, hbuild⟩
  | _ => trivial

theorem pieced_of_save {label : SettingsLabel} (h : Saves (Whole labels) label) :
    Saves (Pieced labels) label := by
  cases label with
  | save form => exact fun henabled config hbuild => (h henabled config hbuild).pieced
  | _ => trivial

/-- The user defaults may have the first fields of one configuration and the others of the last. -/
theorem Unmixed.pieced_defaults (h : s.Unmixed sys (Pieced labels)) : Pieced labels s.defaults := by
  cases hsaving : s.saving with
  | none => exact h.stored hsaving
  | some saving =>
    obtain ⟨happ, old, hold, hdefaults⟩ := h.saving saving hsaving
    rw [hdefaults]
    exact (h.app _ happ).writeDefaults hold _

theorem reads_of_pieced (hreads : ReadsPorts sys) (config : ProxyConfig)
    (h : Pieced labels config.variables) :
    sys.asInt (.number config.proxyPort) = some config.proxyPort :=
  hreads _ (h.ports rfl).1 (h.ports rfl).2

theorem Unmixed.pieced_step (hreads : ReadsPorts sys) (hs : s.Unmixed sys (Pieced labels))
    {label : SettingsLabel} (hmem : label ∈ labels) (hstep : Settings.step sys s label = some t) :
    t.Unmixed sys (Pieced labels) :=
  hs.step (reads_of_pieced hreads) (Whole.pieced (.inl rfl)) (pieced_of_save (whole_of_save hmem))
    (fun _ => hs.pieced_defaults) hstep

theorem unmixed_of_run (hreads : ReadsPorts sys) {before : List SettingsLabel}
    (hmem : ∀ label ∈ before, label ∈ labels)
    (hrun : run (Settings.step sys) (launched .unset) before = some s) :
    s.Unmixed sys (Pieced labels) :=
  run_invariant_of (L := fun label => label ∈ labels)
    (fun _ _ _ hs hlabel hstep => hs.pieced_step hreads hlabel hstep) hmem hrun
    (unmixed_launched (Whole.pieced (.inl rfl)))

/-- The application is not ended while the user defaults have a part of a configuration. -/
def Uncut (s : Settings) : SettingsLabel → Prop
  | .relaunch => ∀ saving ∈ s.saving, saving.written = 0 ∨ s.defaults = saving.config.variables
  | _ => True

instance (s : Settings) : ∀ label, Decidable (s.Uncut label)
  | .relaunch => inferInstanceAs (Decidable (∀ saving ∈ s.saving, _))
  | .save _ | .write | .sendSaved | .session _ | .configure | .sendRead _ | .send _ | .deliver
  | .lose | .restart => .isTrue trivial

theorem Unmixed.whole_defaults (h : s.Unmixed sys (Whole labels)) (hlaunch : s.Uncut .relaunch) :
    Whole labels s.defaults := by
  cases hsaving : s.saving with
  | none => exact h.stored hsaving
  | some saving =>
    obtain ⟨happ, old, hold, hdefaults⟩ := h.saving saving hsaving
    rcases hlaunch saving hsaving with hnone | hall
    · rw [hdefaults, hnone]
      exact hold
    · rw [hall]
      exact h.app _ happ

theorem whole_of_run (hreads : ReadsPorts sys)
    (hrun : run (Settings.step sys) (launched .unset) labels = some s)
    (huncut : Guarded (Settings.step sys) Uncut (launched .unset) labels) :
    s.Unmixed sys (Whole labels) := by
  have hsaves : Guarded (Settings.step sys) (fun _ label => Saves (Whole labels) label)
      (launched .unset) labels := guarded_of_labels (fun label hmem => whole_of_save hmem) _
  refine guarded_invariant ?_ hrun (hsaves.and huncut) (unmixed_launched (.inl rfl))
  rintro s label t hs ⟨hlabel, hcut⟩ hstep
  refine hs.step (fun config hconfig => reads_of_pieced hreads config hconfig.pieced) (.inl rfl)
    hlabel ?_ hstep
  rintro rfl
  exact hs.whole_defaults hcut

theorem built_of_whole (h : Whole labels config.variables) : Built labels config := by
  rcases h with hunset | ⟨config', hvars, hbuilt⟩
  · cases hunset
  · have hsame : some config = some config' := congrArg loadProxyConfig hvars
    obtain rfl := Option.some.inj hsame
    exact hbuilt

def lastSent (sys : ProviderSystem) (messages : List Message) : Option ProxyConfig :=
  (messages.filterMap (Message.config sys)).getLast?

theorem lastSent_append (sys : ProviderSystem) (messages more : List Message) :
    lastSent sys (messages ++ more) = (lastSent sys more).or (lastSent sys messages) := by
  rw [lastSent, List.filterMap_append, List.getLast?_append]
  rfl

theorem lastSent_singleton (sys : ProviderSystem) (m : Message) :
    lastSent sys [m] = m.config sys := by
  rw [lastSent, List.filterMap_cons]
  cases m.config sys <;> rfl

/-- The proxy of the extension once the messages on their way have arrived. -/
def due (sys : ProviderSystem) (s : Settings) : ProxyVariables :=
  (lastSent sys s.channel).elim s.provider.proxy ProxyConfig.variables

/-- The extension will have the configuration of the application, unless the latter is about to send
it. -/
def Synced (sys : ProviderSystem) (s : Settings) : Prop :=
  s.saving = none → ∃ config, s.proxyConfig = some config ∧ s.due sys = config.variables

/-- A session is there when a save sends, no save is cut, a timer sends what no save has replaced
since, and the extension and its messages are not lost. -/
def Keeps (s : Settings) : SettingsLabel → Prop
  | .sendSaved => s.hasSession = true
  | .relaunch => s.saving = none
  | .sendRead i => s.saving = none → s.read[i]? = s.proxyConfig
  | .lose | .restart => False
  | _ => True

instance (s : Settings) : ∀ label, Decidable (s.Keeps label)
  | .sendSaved => inferInstanceAs (Decidable (s.hasSession = true))
  | .relaunch => inferInstanceAs (Decidable (s.saving = none))
  | .sendRead i => inferInstanceAs (Decidable (s.saving = none → s.read[i]? = s.proxyConfig))
  | .lose | .restart => .isFalse id
  | .save _ | .write | .session _ | .configure | .send _ | .deliver => .isTrue trivial

theorem due_send (sys : ProviderSystem) (s : Settings) (m : Message) :
    due sys { s with channel := s.channel ++ [m] } =
      (m.config sys).elim (s.due sys) ProxyConfig.variables := by
  unfold due
  rw [lastSent_append, lastSent_singleton]
  cases m.config sys <;> rfl

theorem due_config {config : ProxyConfig}
    (hport : sys.asInt (.number config.proxyPort) = some config.proxyPort) (s : Settings) :
    due sys { s with channel := s.channel ++ [config.message] } = config.variables := by
  rw [due_send, config_message hport]
  rfl

theorem synced_of_sendRead (hreads : ReadsPorts sys) (hs : s.Unmixed sys (Pieced labels)) {i : ℕ}
    (hkeeps : s.Keeps (.sendRead i)) (hstep : Settings.step sys s (.sendRead i) = some t) :
    t.Synced sys := by
  obtain ⟨config, hconfig, rfl⟩ := Option.map_eq_some_iff.mp hstep
  intro hidle
  have happ : s.proxyConfig = some config := (hkeeps hidle).symm.trans hconfig
  exact ⟨config, happ, due_config (reads_of_pieced hreads _ (hs.app _ happ)) s⟩

theorem Synced.step (hreads : ReadsPorts sys) (hs : s.Unmixed sys (Pieced labels))
    (h : s.Synced sys) {label : SettingsLabel} (hkeeps : s.Keeps label)
    (hstep : Settings.step sys s label = some t) : t.Synced sys := by
  cases label with
  | save form =>
    obtain ⟨-, hbuild⟩ := Option.ite_none_left_eq_some.mp hstep
    obtain ⟨config, -, rfl⟩ := Option.map_eq_some_iff.mp hbuild
    exact fun hnone => nomatch hnone
  | write =>
    obtain ⟨saving, -, hwrite⟩ := Option.bind_eq_some_iff.mp hstep
    obtain ⟨write, -, rfl⟩ := Option.map_eq_some_iff.mp hwrite
    exact fun hnone => nomatch hnone
  | sendSaved =>
    obtain ⟨saving, hsaving, hdone⟩ := Option.bind_eq_some_iff.mp hstep
    obtain ⟨-, hsend⟩ := Option.ite_none_right_eq_some.mp hdone
    obtain rfl := Option.some.inj hsend
    obtain ⟨happ, -⟩ := hs.saving saving hsaving
    refine fun _ => ⟨saving.config, happ, ?_⟩
    change s.hasSession = true at hkeeps
    rw [Settings.sendSaved, if_pos hkeeps]
    exact due_config (reads_of_pieced hreads _ (hs.app _ happ)) { s with saving := none }
  | relaunch =>
    obtain rfl := Option.some.inj hstep
    obtain ⟨config, happ, hdue⟩ := h hkeeps
    exact fun _ => ⟨config, (hs.loads hkeeps).trans happ, hdue⟩
  | session hasSession =>
    obtain rfl := Option.some.inj hstep
    exact h
  | configure =>
    obtain ⟨config, -, rfl⟩ := Option.map_eq_some_iff.mp hstep
    exact h
  | sendRead i => exact synced_of_sendRead hreads hs hkeeps hstep
  | send m =>
    obtain ⟨haction, hsend⟩ := Option.ite_none_left_eq_some.mp hstep
    obtain rfl := Option.some.inj hsend
    intro hidle
    obtain ⟨config, happ, hdue⟩ := h hidle
    refine ⟨config, happ, ?_⟩
    rw [due_send, config_of_action sys haction]
    exact hdue
  | deliver =>
    rw [Settings.step] at hstep
    cases hchannel : s.channel with
    | nil =>
      rw [hchannel] at hstep
      cases hstep
    | cons m channel =>
      rw [hchannel] at hstep
      obtain ⟨provider, hhandle, rfl⟩ := Option.map_eq_some_iff.mp hstep
      intro hidle
      obtain ⟨config, happ, hdue⟩ := h hidle
      refine ⟨config, happ, ?_⟩
      rw [← hdue, due, due, hchannel, ← List.singleton_append, lastSent_append,
        lastSent_singleton, handleAppMessage_proxy sys hhandle]
      cases lastSent sys channel <;> rfl
  | lose => exact hkeeps.elim
  | restart => exact hkeeps.elim

/-- After a started tunnel was sent the configuration of the application, saves, other messages and
launches of the application may come in any order: once all messages have arrived and no save is
under way, the extension has the configuration of the application, its last one. -/
theorem settings_synced (hreads : ReadsPorts sys) {before after : List SettingsLabel} {i : ℕ}
    {u : Settings} (hbefore : run (Settings.step sys) (launched .unset) before = some s)
    (hsent : Settings.step sys s (.sendRead i) = some t)
    (hafter : run (Settings.step sys) t after = some u)
    (hkeeps : Guarded (Settings.step sys) Keeps s (.sendRead i :: after))
    (harrived : u.channel = []) (hidle : u.saving = none) :
    ∃ config, u.proxyConfig = some config ∧ u.provider.proxy = config.variables := by
  have hmem : ∀ label ∈ before, label ∈ before ++ .sendRead i :: after := fun label hlabel =>
    List.mem_append_left _ hlabel
  have hs := unmixed_of_run hreads hmem hbefore
  have hlabels : ∀ label ∈ after, label ∈ before ++ .sendRead i :: after := fun label hlabel =>
    List.mem_append_right _ (List.mem_cons_of_mem _ hlabel)
  have ht : t.Unmixed sys (Pieced (before ++ .sendRead i :: after)) ∧ t.Synced sys :=
    ⟨hs.pieced_step hreads (by simp) hsent, synced_of_sendRead hreads hs hkeeps.1 hsent⟩
  have hu := guarded_invariant
    (I := fun s => s.Unmixed sys (Pieced (before ++ .sendRead i :: after)) ∧ s.Synced sys)
    (fun s label t ⟨hs, hsynced⟩ ⟨hlabel, hkept⟩ hstep =>
      ⟨hs.pieced_step hreads hlabel hstep, hsynced.step hreads hs hkept hstep⟩)
    hafter ((guarded_of_labels hlabels t).and (hkeeps.2 t hsent)) ht
  obtain ⟨config, happ, hdue⟩ := hu.2 hidle
  refine ⟨config, happ, ?_⟩
  rw [due, harrived] at hdue
  exact hdue

theorem readsPorts_plain : ReadsPorts plainSystem := fun port _ _ => by
  change (if (port : ℚ).den = 1 then some (port : ℚ).num else none) = some port
  rw [Rat.den_intCast, if_pos rfl, Rat.num_intCast]

def firstForm : ProxySettingsForm :=
  ⟨"socks5".toList, "10.0.0.1".toList, "1080".toList, "user".toList, "secret".toList⟩

def secondForm : ProxySettingsForm :=
  ⟨"http".toList, "proxy.example.com".toList, "8080".toList, [], []⟩

def saved (form : ProxySettingsForm) : List SettingsLabel :=
  [.save form, .write, .write, .write, .write, .write, .sendSaved]

def savedTwice : List SettingsLabel :=
  saved firstForm ++ [.session true, .configure, .sendRead 0, .deliver] ++ saved secondForm ++
    [.relaunch, .deliver]

/-- A save and a launch after the start of the tunnel. -/
theorem settings_synced_second :
    ∃ (u : Settings) (config : ProxyConfig),
      u.proxyConfig = some config ∧ u.provider.proxy = config.variables ∧
      config.proxyHost = "proxy.example.com".toList := by
  have hrun : ∃ s t u, run (Settings.step plainSystem) (launched .unset)
        (saved firstForm ++ [.session true, .configure]) = some s ∧
      Settings.step plainSystem s (.sendRead 0) = some t ∧
      run (Settings.step plainSystem) t
        (.deliver :: saved secondForm ++ [.relaunch, .send clearRulesMessage, .deliver,
          .deliver]) = some u ∧
      Guarded (Settings.step plainSystem) Keeps s
        (.sendRead 0 :: (.deliver :: saved secondForm ++ [.relaunch, .send clearRulesMessage,
          .deliver, .deliver])) ∧
      u.channel = [] ∧ u.saving = none ∧
      (u.proxyConfig.map ProxyConfig.proxyHost) = some "proxy.example.com".toList :=
    ⟨_, _, _, rfl, rfl, rfl, by decide +kernel, rfl, rfl, rfl⟩
  obtain ⟨s, t, u, hbefore, hsent, hafter, hkeeps, harrived, hidle, hhost⟩ := hrun
  obtain ⟨config, happ, hproxy⟩ :=
    settings_synced readsPorts_plain hbefore hsent hafter hkeeps harrived hidle
  rw [happ] at hhost
  exact ⟨u, config, happ, hproxy, Option.some.inj hhost⟩

end Settings

end ProxyTun.MacOS
