import ProxyTun.WindowsGui.SaveTasks

/-!
# The configuration file when the program is stopped

The tasks that save the configuration, field by field and byte by byte: the window may change a
field between two that are read, a write may fail in the middle, any call may throw, and the process
may be ended at any time and started again. `config.json` is only ever replaced as a whole.
-/
namespace ProxyTun.WindowsGui
open Library.Transition
open Saves (dnsOff trayOff)

inductive RuleField where
  | processName
  | targetHosts
  | targetPorts
  | protocol
  | action
  | isEnabled
  deriving DecidableEq, Repr

/-- A field of the configuration. -/
inductive ConfigField where
  | proxyType
  | proxyIp
  | proxyPort
  | proxyUsername
  | proxyPassword
  | dnsViaProxy
  | localhostViaProxy
  | isTrafficLoggingEnabled
  | language
  | closeToTray
  /-- How many rules there are. -/
  | proxyRules
  /-- A field of the rule at a place. -/
  | rule (i : ℕ) (field : RuleField)
  deriving DecidableEq, Repr

inductive FieldValue where
  | text (value : CStr)
  | flag (value : Bool)
  | count (n : ℕ)
  deriving DecidableEq, Repr

namespace RuleField

def get (field : RuleField) (rule : ProxyRuleConfig) : FieldValue :=
  match field with
  | .processName => .text rule.processName
  | .targetHosts => .text rule.targetHosts
  | .targetPorts => .text rule.targetPorts
  | .protocol => .text rule.protocol
  | .action => .text rule.action
  | .isEnabled => .flag rule.isEnabled

/-- The field is read from the first rule into the second one. -/
def copy (now rule : ProxyRuleConfig) : RuleField → ProxyRuleConfig
  | .processName => { rule with processName := now.processName }
  | .targetHosts => { rule with targetHosts := now.targetHosts }
  | .targetPorts => { rule with targetPorts := now.targetPorts }
  | .protocol => { rule with protocol := now.protocol }
  | .action => { rule with action := now.action }
  | .isEnabled => { rule with isEnabled := now.isEnabled }

theorem get_copy (now rule : ProxyRuleConfig) (field read : RuleField) :
    field.get (read.copy now rule) = field.get now ∨
      field.get (read.copy now rule) = field.get rule := by
  cases field <;> cases read <;> simp [get, copy]

def copyAt (now rules : List ProxyRuleConfig) (i : ℕ) (field : RuleField) :
    List ProxyRuleConfig :=
  match now[i]? with
  | some rule => rules.modify i fun old => field.copy rule old
  | none => rules

@[simp] theorem length_copyAt (now rules : List ProxyRuleConfig) (i : ℕ) (field : RuleField) :
    (field.copyAt now rules i).length = rules.length := by
  unfold copyAt
  split
  · exact List.length_modify ..
  · rfl

theorem get_copyAt (now rules : List ProxyRuleConfig) (i j : ℕ) (field read : RuleField) :
    (read.copyAt now rules i)[j]?.map field.get = now[j]?.map field.get ∨
      (read.copyAt now rules i)[j]?.map field.get = rules[j]?.map field.get := by
  unfold copyAt
  cases hnow : now[i]? with
  | none => exact .inr rfl
  | some rule =>
    by_cases hij : i = j
    · subst hij
      cases hold : rules[i]? with
      | none => exact .inr (by simp [hold])
      | some old => simpa [hnow, hold] using field.get_copy rule old read
    · exact .inr (by simp [hij])

end RuleField

namespace ConfigField

def get (field : ConfigField) (config : AppConfig) : Option FieldValue :=
  match field with
  | .proxyType => some (.text config.proxyType)
  | .proxyIp => some (.text config.proxyIp)
  | .proxyPort => some (.text config.proxyPort)
  | .proxyUsername => some (.text config.proxyUsername)
  | .proxyPassword => some (.text config.proxyPassword)
  | .dnsViaProxy => some (.flag config.dnsViaProxy)
  | .localhostViaProxy => some (.flag config.localhostViaProxy)
  | .isTrafficLoggingEnabled => some (.flag config.isTrafficLoggingEnabled)
  | .language => some (.text config.language)
  | .closeToTray => some (.flag config.closeToTray)
  | .proxyRules => some (.count config.proxyRules.length)
  | .rule i field => config.proxyRules[i]?.map field.get

/-- The field is read from the first configuration into the second one. -/
def copy (now config : AppConfig) : ConfigField → AppConfig
  | .proxyType => { config with proxyType := now.proxyType }
  | .proxyIp => { config with proxyIp := now.proxyIp }
  | .proxyPort => { config with proxyPort := now.proxyPort }
  | .proxyUsername => { config with proxyUsername := now.proxyUsername }
  | .proxyPassword => { config with proxyPassword := now.proxyPassword }
  | .dnsViaProxy => { config with dnsViaProxy := now.dnsViaProxy }
  | .localhostViaProxy => { config with localhostViaProxy := now.localhostViaProxy }
  | .isTrafficLoggingEnabled =>
    { config with isTrafficLoggingEnabled := now.isTrafficLoggingEnabled }
  | .language => { config with language := now.language }
  | .closeToTray => { config with closeToTray := now.closeToTray }
  | .proxyRules => { config with proxyRules := now.proxyRules }
  | .rule i field => { config with proxyRules := field.copyAt now.proxyRules config.proxyRules i }

theorem get_copy (now config : AppConfig) (field read : ConfigField) :
    field.get (read.copy now config) = field.get now ∨
      field.get (read.copy now config) = field.get config := by
  cases read with
  | rule i read =>
    cases field with
    | rule j field => exact RuleField.get_copyAt now.proxyRules config.proxyRules i j field read
    | proxyRules => exact .inr (by simp [get, copy])
    | _ => exact .inr rfl
  | _ => cases field <;> simp [get, copy]

end ConfigField

def Mixed (had : AppConfig → Prop) (config : AppConfig) : Prop :=
  ∀ field : ConfigField, ∃ now, had now ∧ field.get now = field.get config

theorem mixed_of_had {had : AppConfig → Prop} {config : AppConfig} (h : had config) :
    Mixed had config := fun _ => ⟨config, h, rfl⟩

theorem Mixed.copy {had : AppConfig → Prop} {now config : AppConfig} (h : Mixed had config)
    (hnow : had now) (read : ConfigField) : Mixed had (read.copy now config) := by
  intro field
  rcases ConfigField.get_copy now config field read with hread | hkept
  · exact ⟨now, hnow, hread.symm⟩
  · obtain ⟨old, hold, hget⟩ := h field
    exact ⟨old, hold, hget.trans hkept.symm⟩

/-- `JsonSerializer` with the bytes of a file. Blank bytes and those that do not parse give
nothing. -/
structure JsonFormat where
  serialize : AppConfig → List Byte
  deserialize : List Byte → Option AppConfig

/-- The configurations with a property are read back. -/
def JsonFormat.ReadsBack (json : JsonFormat) (P : AppConfig → Prop) : Prop :=
  ∀ config, P config → json.deserialize (json.serialize config) = some config

/-- `LoadConfig` of a file that can be read. -/
def JsonFormat.loadConfig (json : JsonFormat) (file : Option (List Byte)) : AppConfig :=
  (file.bind json.deserialize).getD .standard

/-- The temporary file with its bytes, opened by a task or not. -/
inductive TempBytes where
  | absent
  | opened (bytes : List Byte)
  | closed (bytes : List Byte)
  deriving DecidableEq, Repr

/-- How far a task is that writes the file. -/
inductive WritePhase where
  | waiting
  /-- `ChangeLanguage`, which changes the configuration in the file. -/
  | loading (language : CStr)
  /-- The snapshot is begun. -/
  | reading (config : AppConfig)
  | taken (config : AppConfig)
  /-- `File.WriteAllText` with some bytes of the text written. -/
  | writing (config : AppConfig) (n : ℕ)
  | written (config : AppConfig)
  | failing
  | ended
  deriving DecidableEq, Repr

namespace WritePhase

/-- What a task reads has the property `S`, what it is to write the property `P`, and `L` is a
property of the languages. -/
def Has (S P : AppConfig → Prop) (L : CStr → Prop) : WritePhase → Prop
  | .loading language => L language
  | .reading config => S config
  | .taken config | .writing config _ | .written config => P config
  | .waiting | .failing | .ended => True

def isWriting : WritePhase → Bool
  | .writing _ _ => true
  | _ => false

def isWritten : WritePhase → Bool
  | .written _ => true
  | _ => false

end WritePhase

/-- The configuration of the window with the files and the tasks. -/
structure ConfigFiles where
  current : AppConfig
  file : Option (List Byte)
  temp : TempBytes
  tasks : List WritePhase
  deriving DecidableEq, Repr

inductive FileLabel where
  /-- A property is set without a save. -/
  | assign (config : AppConfig)
  | change (config : AppConfig)
  | changeLanguage (language : CStr)
  /-- A task reads a field of its snapshot that the window may have changed since. -/
  | read (i : ℕ) (field : ConfigField)
  /-- A task writes some bytes. -/
  | write (i n : ℕ)
  /-- The next call of a task returns. -/
  | task (i : ℕ)
  /-- The next call of a task throws. -/
  | fail (i : ℕ)
  /-- The process ends, and the program is started again. -/
  | kill
  deriving DecidableEq, Repr

namespace ConfigFiles

/-- The program is started with what is found on the disk. -/
def start (file : Option (List Byte)) (temp : TempBytes) : ConfigFiles :=
  ⟨.standard, file, temp, []⟩

/-- What a call leaves: the task, the temporary file and `config.json`. -/
abbrev Left := WritePhase × TempBytes × Option (List Byte)

section
variable (json : JsonFormat)

/-- The next call of a task. A temporary file that another task has open is neither opened, moved
nor deleted. -/
def advance (s : ConfigFiles) : WritePhase → Option Left
  | .waiting => some (.reading s.current, s.temp, s.file)
  | .reading config => some (.taken config, s.temp, s.file)
  | .loading language =>
    some (.taken { json.loadConfig s.file with language := language }, s.temp, s.file)
  | .taken config =>
    match s.temp with
    | .opened _ => some (.failing, s.temp, s.file)
    | _ => some (.writing config 0, .opened [], s.file)
  | .writing config n =>
    if n < (json.serialize config).length then none
    else some (.written config, .closed (json.serialize config), s.file)
  | .written _ =>
    match s.temp with
    | .closed bytes => some (.ended, .absent, some bytes)
    | _ => some (.failing, s.temp, s.file)
  | .failing =>
    match s.temp with
    | .opened _ => some (.ended, s.temp, s.file)
    | _ => some (.ended, .absent, s.file)
  | .ended => none

/-- A call that throws. What was written to the temporary file stays there, and a file that cannot
be read is taken for one that is not there. -/
def throws (s : ConfigFiles) : WritePhase → Option Left
  | .waiting | .reading _ => some (.ended, s.temp, s.file)
  | .loading language =>
    some (.taken { AppConfig.standard with language := language }, s.temp, s.file)
  | .taken _ => some (.failing, s.temp, s.file)
  | .writing config n => some (.failing, .closed ((json.serialize config).take n), s.file)
  | .written _ => some (.failing, s.temp, s.file)
  | .failing => some (.ended, s.temp, s.file)
  | .ended => none

def readField (field : ConfigField) (s : ConfigFiles) : WritePhase → Option Left
  | .reading config => some (.reading (field.copy s.current config), s.temp, s.file)
  | _ => none

def writeBytes (n : ℕ) (s : ConfigFiles) : WritePhase → Option Left
  | .writing config m =>
    some (.writing config (m + n), .opened ((json.serialize config).take (m + n)), s.file)
  | _ => none

/-- A call of a task. -/
def call (s : ConfigFiles) (i : ℕ) (act : WritePhase → Option Left) : Option ConfigFiles :=
  (s.tasks[i]?).bind fun phase => (act phase).map fun left =>
    { s with temp := left.2.1, file := left.2.2, tasks := s.tasks.set i left.1 }

/-- The temporary file once no task has it open. -/
def abandoned : TempBytes → TempBytes
  | .opened bytes => .closed bytes
  | temp => temp

def step (s : ConfigFiles) : FileLabel → Option ConfigFiles
  | .assign config => some { s with current := config }
  | .change config => some { s with current := config, tasks := s.tasks ++ [.waiting] }
  | .changeLanguage language =>
    if language = [] then some s
    else some { s with
      current := { s.current with language := language }
      tasks := s.tasks ++ [.loading language] }
  | .read i field => s.call i (s.readField field)
  | .write i n => s.call i (s.writeBytes json n)
  | .task i => s.call i (s.advance json)
  | .fail i => s.call i (s.throws json)
  | .kill => some (start s.file (abandoned s.temp))

end

/-- No write fails while another task is about to move what it has written. -/
def NoTornWrite (s : ConfigFiles) : FileLabel → Prop
  | .fail i => (s.tasks[i]?).any WritePhase.isWriting = true →
    s.tasks.any WritePhase.isWritten = false
  | _ => True

instance (s : ConfigFiles) : DecidablePred s.NoTornWrite
  | .fail _ => inferInstanceAs (Decidable (_ → _))
  | .assign _ | .change _ | .changeLanguage _ | .read _ _ | .write _ _ | .task _ | .kill =>
    .isTrue trivial

section
variable (json : JsonFormat) (file : Option (List Byte)) (temp : TempBytes)
  (labels : List FileLabel)

/-- The configuration of the window at some moment of the run. -/
def Had (config : AppConfig) : Prop :=
  ∃ s, Visits (step json) (start file temp) labels s ∧ s.current = config

/-- What `LoadConfig` gives at some moment of the run, the defaults if it cannot read the file. -/
def Loaded (config : AppConfig) : Prop :=
  config = .standard ∨
    ∃ s, Visits (step json) (start file temp) labels s ∧ json.loadConfig s.file = config

/-- The configurations that tasks write: the snapshots, each field of which is the one of some
moment, and in a chosen language what was loaded. -/
inductive Arises : AppConfig → Prop
  | snapshot {config : AppConfig} (h : Mixed (Had json file temp labels) config) : Arises config
  | language {config : AppConfig} (h : Loaded json file temp labels config) {language : CStr}
    (hchosen : .changeLanguage language ∈ labels) : Arises { config with language := language }

end

def IsText (json : JsonFormat) (P : AppConfig → Prop) (bytes : List Byte) : Prop :=
  ∃ config, bytes = json.serialize config ∧ P config

/-- What a run keeps: `config.json` is the one from the start or the text of a configuration, and so
is what a task is about to move there. -/
structure Whole (json : JsonFormat) (S P : AppConfig → Prop) (L : CStr → Prop)
    (file : Option (List Byte)) (s : ConfigFiles) : Prop where
  file : s.file = file ∨ ∃ bytes, s.file = some bytes ∧ IsText json P bytes
  tasks : ∀ phase ∈ s.tasks, phase.Has S P L
  temp : s.tasks.any WritePhase.isWritten = true →
    ∀ bytes, s.temp = .closed bytes → IsText json P bytes
  opened : ∀ bytes, s.temp = .opened bytes → ∃ phase ∈ s.tasks, phase.isWriting = true

section
variable {json : JsonFormat} {S P : AppConfig → Prop} {L : CStr → Prop}
  {file : Option (List Byte)} {s t : ConfigFiles} {label : FileLabel} {i : ℕ}

theorem whole_start {temp : TempBytes} (htemp : ∀ bytes, temp ≠ .opened bytes) :
    Whole json S P L file (start file temp) :=
  ⟨.inl rfl, fun _ hphase => absurd hphase List.not_mem_nil,
    fun h => absurd h Bool.false_ne_true, fun bytes hopened => absurd hopened (htemp bytes)⟩

theorem call_eq_some {act : WritePhase → Option Left} (h : s.call i act = some t) :
    ∃ phase left, s.tasks[i]? = some phase ∧ act phase = some left ∧
      t = { s with temp := left.2.1, file := left.2.2, tasks := s.tasks.set i left.1 } := by
  obtain ⟨phase, hphase, hmap⟩ := Option.bind_eq_some_iff.mp h
  obtain ⟨left, hleft, rfl⟩ := Option.map_eq_some_iff.mp hmap
  exact ⟨phase, left, hphase, hleft, rfl⟩

theorem mem_set_of_ne {phase old new : WritePhase} (hold : s.tasks[i]? = some old)
    (hphase : phase ∈ s.tasks) (hne : phase ≠ old) : phase ∈ s.tasks.set i new := by
  obtain ⟨j, hj⟩ := List.mem_iff_getElem?.mp hphase
  have hji : i ≠ j := by
    rintro rfl
    exact hne (Option.some.inj (hj.symm.trans hold))
  exact List.mem_iff_getElem?.mpr ⟨j, (List.getElem?_set_ne hji).trans hj⟩

theorem Whole.call (h : Whole json S P L file s) {phase : WritePhase} {left : Left}
    (hphase : s.tasks[i]? = some phase)
    (hhas : left.1.Has S P L)
    (hfile : left.2.2 = s.file ∨ ∃ bytes, left.2.2 = some bytes ∧ IsText json P bytes)
    (htemp : (s.tasks.any WritePhase.isWritten = true ∨ left.1.isWritten = true) →
      ∀ bytes, left.2.1 = .closed bytes → IsText json P bytes)
    (hopened : ∀ bytes, left.2.1 = .opened bytes →
      left.1.isWriting = true ∨ left.2.1 = s.temp ∧ phase.isWriting = false) :
    Whole json S P L file
      { s with temp := left.2.1, file := left.2.2, tasks := s.tasks.set i left.1 } where
  file := by
    rcases hfile with hsame | htext
    · rw [hsame]
      exact h.file
    · exact .inr htext
  tasks phase' hphase' := by
    rcases List.mem_or_eq_of_mem_set hphase' with hold | rfl
    · exact h.tasks phase' hold
    · exact hhas
  temp hwritten := by
    obtain ⟨phase', hphase', hwritten'⟩ := List.any_eq_true.mp hwritten
    rcases List.mem_or_eq_of_mem_set hphase' with hold | rfl
    · exact htemp (.inl (List.any_eq_true.mpr ⟨phase', hold, hwritten'⟩))
    · exact htemp (.inr hwritten')
  opened bytes hbytes := by
    obtain ⟨hi, -⟩ := List.getElem?_eq_some_iff.mp hphase
    rcases hopened bytes hbytes with hwriting | ⟨hsame, hnot⟩
    · exact ⟨left.1, List.mem_set hi left.1, hwriting⟩
    · obtain ⟨phase', hphase', hwriting⟩ := h.opened bytes (hsame.symm.trans hbytes)
      refine ⟨phase', mem_set_of_ne hphase hphase' ?_, hwriting⟩
      rintro rfl
      rw [hwriting] at hnot
      cases hnot

theorem Whole.call_task (h : Whole json S P L file s) (next : WritePhase) {phase : WritePhase}
    (hphase : s.tasks[i]? = some phase) (hreading : phase.isWriting = false)
    (hnext : next.isWritten = false) (hhas : next.Has S P L) :
    Whole json S P L file { s with tasks := s.tasks.set i next } := by
  have hleft : (next, s.temp, s.file).1.Has S P L := hhas
  refine h.call hphase hleft (.inl rfl) ?_ fun bytes _ => .inr ⟨rfl, hreading⟩
  rintro (hwritten | hwritten)
  · exact h.temp hwritten
  · rw [hnext] at hwritten
    cases hwritten

theorem Whole.advance (h : Whole json S P L file s) (hcurrent : S s.current)
    (hsnapshot : ∀ config, S config → P config)
    (hlanguage : ∀ language, L language → P { json.loadConfig s.file with language := language })
    (hstep : s.call i (s.advance json) = some t) :
    Whole json S P L file t := by
  obtain ⟨phase, left, hphase, hleft, rfl⟩ := call_eq_some hstep
  have hmem := List.mem_of_getElem? hphase
  cases phase with
  | waiting =>
    obtain rfl := Option.some.inj hleft
    exact h.call_task _ hphase rfl rfl hcurrent
  | loading language =>
    obtain rfl := Option.some.inj hleft
    exact h.call_task _ hphase rfl rfl (hlanguage language (h.tasks _ hmem))
  | reading config =>
    obtain rfl := Option.some.inj hleft
    exact h.call_task _ hphase rfl rfl (hsnapshot config (h.tasks _ hmem))
  | taken config =>
    have hP : P config := h.tasks _ hmem
    cases htemp : s.temp with
    | opened bytes =>
      simp only [ConfigFiles.advance, htemp] at hleft
      obtain rfl := Option.some.inj hleft
      have hsame := h.call_task .failing hphase rfl rfl trivial
      rw [htemp] at hsame
      exact hsame
    | absent | closed bytes =>
      simp only [ConfigFiles.advance, htemp] at hleft
      obtain rfl := Option.some.inj hleft
      exact h.call hphase hP (.inl rfl)
        (fun _ bytes hclosed => by cases hclosed) fun bytes _ => .inl rfl
  | writing config n =>
    obtain ⟨-, hleft⟩ := Option.ite_none_left_eq_some.mp hleft
    obtain rfl := Option.some.inj hleft
    have hP : P config := h.tasks _ hmem
    refine h.call hphase hP (.inl rfl)
      (fun _ bytes hclosed => ?_) fun bytes hopened => by cases hopened
    obtain rfl := TempBytes.closed.inj hclosed
    exact ⟨config, rfl, hP⟩
  | written config =>
    have hwritten : s.tasks.any WritePhase.isWritten = true :=
      List.any_eq_true.mpr ⟨_, hmem, rfl⟩
    cases htemp : s.temp with
    | closed bytes =>
      simp only [ConfigFiles.advance, htemp] at hleft
      obtain rfl := Option.some.inj hleft
      exact h.call hphase trivial (.inr ⟨bytes, rfl, h.temp hwritten bytes htemp⟩)
        (fun _ bytes hclosed => by cases hclosed) fun bytes hopened => by cases hopened
    | absent | opened bytes =>
      simp only [ConfigFiles.advance, htemp] at hleft
      obtain rfl := Option.some.inj hleft
      have hsame := h.call_task .failing hphase rfl rfl trivial
      rw [htemp] at hsame
      exact hsame
  | failing =>
    cases htemp : s.temp with
    | opened bytes =>
      simp only [ConfigFiles.advance, htemp] at hleft
      obtain rfl := Option.some.inj hleft
      have hsame := h.call_task .ended hphase rfl rfl trivial
      rw [htemp] at hsame
      exact hsame
    | absent | closed bytes =>
      simp only [ConfigFiles.advance, htemp] at hleft
      obtain rfl := Option.some.inj hleft
      exact h.call hphase trivial (.inl rfl) (fun _ bytes hclosed => by cases hclosed)
        fun bytes hopened => by cases hopened
  | ended => cases hleft

theorem Whole.throws (h : Whole json S P L file s)
    (hlanguage : ∀ language, L language → P { AppConfig.standard with language := language })
    (hguard : s.NoTornWrite (.fail i)) (hstep : s.call i (s.throws json) = some t) :
    Whole json S P L file t := by
  obtain ⟨phase, left, hphase, hleft, rfl⟩ := call_eq_some hstep
  have hmem := List.mem_of_getElem? hphase
  cases phase with
  | waiting | reading config | taken config | written config | failing =>
    obtain rfl := Option.some.inj hleft
    exact h.call_task _ hphase rfl rfl trivial
  | loading language =>
    obtain rfl := Option.some.inj hleft
    exact h.call_task _ hphase rfl rfl (hlanguage language (h.tasks _ hmem))
  | writing config n =>
    obtain rfl := Option.some.inj hleft
    have hunwritten : s.tasks.any WritePhase.isWritten = false := hguard (by rw [hphase]; rfl)
    refine h.call hphase trivial (.inl rfl) ?_ fun bytes hopened => by cases hopened
    rintro (hwritten | hwritten)
    · rw [hunwritten] at hwritten
      cases hwritten
    · cases hwritten
  | ended => cases hleft

theorem Whole.writeBytes (h : Whole json S P L file s) {n : ℕ}
    (hstep : s.call i (s.writeBytes json n) = some t) : Whole json S P L file t := by
  obtain ⟨phase, left, hphase, hleft, rfl⟩ := call_eq_some hstep
  cases phase with
  | writing config m =>
    obtain rfl := Option.some.inj hleft
    have hP : P config := h.tasks _ (List.mem_of_getElem? hphase)
    exact h.call hphase hP (.inl rfl)
      (fun _ bytes hclosed => by cases hclosed) fun bytes _ => .inl rfl
  | waiting | loading language | reading config | taken config | written config | failing
  | ended => cases hleft

theorem Whole.readField (h : Whole json S P L file s) {field : ConfigField}
    (hread : ∀ config, S config → S (field.copy s.current config))
    (hstep : s.call i (s.readField field) = some t) : Whole json S P L file t := by
  obtain ⟨phase, left, hphase, hleft, rfl⟩ := call_eq_some hstep
  cases phase with
  | reading config =>
    obtain rfl := Option.some.inj hleft
    exact h.call_task _ hphase rfl rfl (hread config (h.tasks _ (List.mem_of_getElem? hphase)))
  | waiting | loading language | taken config | writing config n | written config | failing
  | ended => cases hleft

theorem Whole.start_task (h : Whole json S P L file s) (config : AppConfig)
    {phase : WritePhase} (hhas : phase.Has S P L) (hwritten : phase.isWritten = false) :
    Whole json S P L file { s with current := config, tasks := s.tasks ++ [phase] } where
  file := h.file
  tasks phase' hphase' := by
    rcases List.mem_append.mp hphase' with hold | hnew
    · exact h.tasks phase' hold
    · rw [List.mem_singleton.mp hnew]
      exact hhas
  temp hany := by
    rw [List.any_append, Bool.or_eq_true] at hany
    rcases hany with hold | hnew
    · exact h.temp hold
    · rw [List.any_cons, List.any_nil, Bool.or_false, hwritten] at hnew
      cases hnew
  opened bytes hbytes := by
    obtain ⟨phase', hphase', hwriting⟩ := h.opened bytes hbytes
    exact ⟨phase', List.mem_append_left _ hphase', hwriting⟩

theorem abandoned_ne_opened (temp : TempBytes) (bytes : List Byte) :
    abandoned temp ≠ .opened bytes := by
  cases temp <;> exact fun h => by cases h

section
variable {temp : TempBytes} {labels : List FileLabel}

/-- `Whole` with what the tasks of a run read and write. -/
abbrev WholeIn (json : JsonFormat) (file : Option (List Byte)) (temp : TempBytes)
    (labels : List FileLabel) : ConfigFiles → Prop :=
  Whole json (Mixed (Had json file temp labels)) (Arises json file temp labels)
    (fun language => .changeLanguage language ∈ labels) file

theorem whole_step (hvisits : Visits (step json) (start file temp) labels s) (hmem : label ∈ labels)
    (h : WholeIn json file temp labels s) (hguard : s.NoTornWrite label)
    (hstep : s.step json label = some t) : WholeIn json file temp labels t := by
  have hcurrent : Had json file temp labels s.current := ⟨s, hvisits, rfl⟩
  cases label with
  | assign config =>
    obtain rfl := Option.some.inj hstep
    exact ⟨h.file, h.tasks, h.temp, h.opened⟩
  | change config =>
    obtain rfl := Option.some.inj hstep
    exact h.start_task config trivial rfl
  | changeLanguage language =>
    change (if language = [] then _ else _) = _ at hstep
    split_ifs at hstep
    · obtain rfl := Option.some.inj hstep
      exact h
    · obtain rfl := Option.some.inj hstep
      exact h.start_task _ hmem rfl
  | read i field => exact h.readField (fun config hconfig => hconfig.copy hcurrent field) hstep
  | write i n => exact h.writeBytes hstep
  | task i =>
    exact h.advance (mixed_of_had hcurrent) (fun config hconfig => .snapshot hconfig)
      (fun language hchosen => .language (.inr ⟨s, hvisits, rfl⟩) hchosen) hstep
  | fail i => exact h.throws (fun language hchosen => .language (.inl rfl) hchosen) hguard hstep
  | kill =>
    obtain rfl := Option.some.inj hstep
    exact ⟨h.file, fun _ hphase => absurd hphase List.not_mem_nil,
      fun hany => absurd hany Bool.false_ne_true,
      fun bytes hopened => absurd hopened (abandoned_ne_opened s.temp bytes)⟩

theorem whole_of_run (htemp : ∀ bytes, temp ≠ .opened bytes)
    (hrun : run (step json) (start file temp) labels = some s)
    (hguard : Guarded (step json) NoTornWrite (start file temp) labels) :
    WholeIn json file temp labels s :=
  guarded_invariant_visited
    (fun _ _ _ hvisits hmem h hlabel hstep => whole_step hvisits hmem h hlabel hstep) hrun hguard
    (whole_start htemp)

end

/-- The text of a configuration without rules whose texts need no escapes. -/
def plainText (config : AppConfig) : List Byte :=
  let field := fun (name : String) (value : CStr) =>
    ('"' :: name.toList) ++ '"' :: ':' :: '"' :: value ++ ['"', ',']
  let flag := fun (name : String) (value : Bool) =>
    ('"' :: name.toList) ++ '"' :: ':' :: (if value then "true," else "false,").toList
  let text := field "ProxyType" config.proxyType ++ field "ProxyIp" config.proxyIp ++
    field "ProxyPort" config.proxyPort ++ field "ProxyUsername" config.proxyUsername ++
    field "ProxyPassword" config.proxyPassword ++ flag "DnsViaProxy" config.dnsViaProxy ++
    flag "LocalhostViaProxy" config.localhostViaProxy ++
    flag "IsTrafficLoggingEnabled" config.isTrafficLoggingEnabled ++
    field "Language" config.language ++ flag "CloseToTray" config.closeToTray
  ("\x7b".toList ++ text ++ "\"ProxyRules\":[]\x7d".toList).map fun c => BitVec.ofNat 8 c.toNat

/-- `JsonSerializer` at three configurations. -/
def plainJson : JsonFormat where
  serialize := plainText
  deserialize bytes :=
    [AppConfig.standard, dnsOff, trayOff].find? fun config => plainText config = bytes

/-- The process is ended in the middle of a write, started again, and saves the change. -/
def endedInWrite : List FileLabel :=
  [.change dnsOff, .task 0, .task 0, .task 0, .write 0 5, .kill, .change dnsOff, .task 0,
    .read 0 .language, .task 0, .task 0, .write 0 (plainText dnsOff).length, .task 0, .task 0]

/-- A property of the configurations that are set, also in a language that is chosen. -/
def Sets (Q : AppConfig → Prop) : FileLabel → Prop
  | .assign config | .change config => Q config
  | .changeLanguage language =>
    ∀ config : AppConfig, Q config → Q { config with language := language }
  | .read _ _ | .write _ _ | .task _ | .fail _ | .kill => True

theorem current_call {act : WritePhase → Option Left} (h : s.call i act = some t) :
    t.current = s.current := by
  obtain ⟨phase, left, -, -, rfl⟩ := call_eq_some h
  rfl

theorem current_of_sets {Q : AppConfig → Prop} {temp : TempBytes} {labels : List FileLabel}
    {config : AppConfig} (hstandard : Q .standard) (hsets : ∀ label ∈ labels, Sets Q label)
    (h : Had json file temp labels config) : Q config := by
  obtain ⟨s, ⟨before, hbefore, hrun⟩, rfl⟩ := h
  refine run_invariant_of (I := fun s : ConfigFiles => Q s.current)
    (fun s label t hs hlabel hstep => ?_)
    (fun label hmem => hsets label (hbefore.subset hmem)) hrun hstandard
  cases label with
  | assign config | change config =>
    obtain rfl := Option.some.inj hstep
    exact hlabel
  | changeLanguage language =>
    change (if language = [] then _ else _) = _ at hstep
    split_ifs at hstep <;> obtain rfl := Option.some.inj hstep
    · exact hs
    · exact hlabel _ hs
  | read i field | write i n | task i | fail i =>
    rw [current_call hstep]
    exact hs
  | kill =>
    obtain rfl := Option.some.inj hstep
    exact hstandard

theorem eq_of_mixed {config : AppConfig}
    (h : Mixed (fun now => now = .standard ∨ now = dnsOff) config) :
    config = .standard ∨ config = dnsOff := by
  have hsame : ∀ field, field ≠ .dnsViaProxy →
      ConfigField.get field config = ConfigField.get field .standard := by
    intro field hne
    obtain ⟨now, rfl | rfl, hget⟩ := h field
    · exact hget.symm
    · refine hget.symm.trans ?_
      cases field <;> first | rfl | exact absurd rfl hne
  have hrules := hsame .proxyRules (by decide)
  have htexts := And.intro (hsame .proxyType (by decide)) <|
    And.intro (hsame .proxyIp (by decide)) <| And.intro (hsame .proxyPort (by decide)) <|
    And.intro (hsame .proxyUsername (by decide)) <|
    And.intro (hsame .proxyPassword (by decide)) (hsame .language (by decide))
  have hflags := And.intro (hsame .localhostViaProxy (by decide)) <|
    And.intro (hsame .isTrafficLoggingEnabled (by decide)) (hsame .closeToTray (by decide))
  rcases config with ⟨type, ip, port, username, password, dns, localhost, logging, language, tray,
    rules⟩
  simp only [ConfigField.get, AppConfig.standard, Option.some.injEq, FieldValue.text.injEq,
    FieldValue.flag.injEq, FieldValue.count.injEq, List.length_nil, List.length_eq_zero_iff]
    at hrules htexts hflags
  obtain ⟨rfl, rfl, rfl, rfl, rfl, rfl⟩ := htexts
  obtain ⟨rfl, rfl, rfl⟩ := hflags
  subst hrules
  cases dns
  · exact .inr rfl
  · exact .inl rfl

theorem readsBack_endedInWrite :
    plainJson.ReadsBack (Arises plainJson none .absent endedInWrite) := by
  intro config h
  cases h with
  | snapshot h =>
    have hset : ∀ label ∈ endedInWrite, Sets (fun now => now = .standard ∨ now = dnsOff) label := by
      simp [endedInWrite, Sets]
    have hmixed : Mixed (fun now => now = .standard ∨ now = dnsOff) config := fun field => by
      obtain ⟨now, hnow, hget⟩ := h field
      exact ⟨now, current_of_sets (.inl rfl) hset hnow, hget⟩
    rcases eq_of_mixed hmixed with rfl | rfl <;> decide +kernel
  | language h hchosen => exact absurd hchosen (by simp [endedInWrite])

/-- A write that fails while another task is about to move the temporary file. -/
def failedBeforeMove : List FileLabel :=
  [.change dnsOff, .task 0, .task 0, .task 0, .write 0 (plainText dnsOff).length, .task 0,
    .change trayOff, .task 1, .task 1, .task 1, .write 1 5, .fail 1, .task 0]

/-- The other task moves the bytes of the failed write, and the next start has lost every setting.
-/
example :
    (run (step plainJson) (start none .absent) failedBeforeMove).map
      (fun s => (s.file, plainJson.loadConfig s.file)) =
        some (some ((plainText trayOff).take 5), .standard) := by
  decide +kernel

theorem call_last {act : WritePhase → Option Left} {tasks : List WritePhase} {phase : WritePhase}
    {left : Left} (htasks : s.tasks = tasks ++ [phase]) (hact : act phase = some left) :
    s.call tasks.length act = some ⟨s.current, left.2.2, left.2.1, tasks ++ [left.1]⟩ := by
  have hphase : s.tasks[tasks.length]? = some phase := by simp [htasks]
  rw [ConfigFiles.call, hphase, Option.bind_some, hact, Option.map_some, htasks]
  simp

/-- The labels of a change whose task is alone. -/
def savesAlone (json : JsonFormat) (config : AppConfig) (i : ℕ) : List FileLabel :=
  [.change config, .task i, .task i, .task i, .write i (json.serialize config).length, .task i,
    .task i]

/-- Whatever the temporary file holds, a change is saved when no task is under way and no call
throws. -/
theorem run_savesAlone (config : AppConfig) (htemp : ∀ bytes, s.temp ≠ .opened bytes) :
    ∃ t, run (step json) s (savesAlone json config s.tasks.length) = some t ∧
      t.file = some (json.serialize config) ∧ t.temp = .absent := by
  have hopen : ConfigFiles.advance json ⟨config, s.file, s.temp, s.tasks ++ [.taken config]⟩
      (.taken config) = some (.writing config 0, .opened [], s.file) := by
    cases hfound : s.temp with
    | opened bytes => exact absurd hfound (htemp bytes)
    | absent | closed bytes => rfl
  have hclose : ConfigFiles.advance json
      ⟨config, s.file, .opened ((json.serialize config).take (0 + (json.serialize config).length)),
        s.tasks ++ [.writing config (0 + (json.serialize config).length)]⟩
      (.writing config (0 + (json.serialize config).length)) =
        some (.written config, .closed (json.serialize config), s.file) := by
    rw [ConfigFiles.advance, if_neg (by omega)]
  refine ⟨⟨config, some (json.serialize config), .absent, s.tasks ++ [.ended]⟩, ?_, rfl, rfl⟩
  exact run_cons_eq_some.mpr ⟨_, rfl, run_cons_eq_some.mpr ⟨_, call_last rfl rfl,
    run_cons_eq_some.mpr ⟨_, call_last rfl rfl, run_cons_eq_some.mpr ⟨_, call_last rfl hopen,
      run_cons_eq_some.mpr ⟨_, call_last rfl rfl, run_cons_eq_some.mpr ⟨_, call_last rfl hclose,
        run_cons_eq_some.mpr ⟨_, call_last rfl rfl, rfl⟩⟩⟩⟩⟩⟩⟩

/-- After every run, with whatever was ended or has failed in it, the next change that is saved
alone is what the next start loads. -/
theorem config_recovers {labels : List FileLabel} {temp : TempBytes}
    (htemp : ∀ bytes, temp ≠ .opened bytes)
    (hrun : run (step json) (start file temp) labels = some s)
    (hguard : Guarded (step json) NoTornWrite (start file temp) labels)
    (hended : ∀ phase ∈ s.tasks, phase = .ended) {config : AppConfig}
    (hconfig : json.deserialize (json.serialize config) = some config) :
    ∃ t, run (step json) s (savesAlone json config s.tasks.length) = some t ∧
      json.loadConfig t.file = config := by
  have hclosed : ∀ bytes, s.temp ≠ .opened bytes := by
    intro bytes hbytes
    obtain ⟨phase, hphase, hwriting⟩ := (whole_of_run htemp hrun hguard).opened bytes hbytes
    rw [hended phase hphase] at hwriting
    cases hwriting
  obtain ⟨t, ht, hfile, -⟩ := @run_savesAlone json s config hclosed
  refine ⟨t, ht, ?_⟩
  rw [hfile, JsonFormat.loadConfig, Option.bind_some, hconfig, Option.getD_some]

/-- A change after the process was ended in a write and started again. -/
theorem config_recovers_endedInWrite : ∃ s t,
    run (step plainJson) (start none .absent) endedInWrite = some s ∧
      run (step plainJson) s (savesAlone plainJson trayOff s.tasks.length) = some t ∧
      plainJson.loadConfig t.file = trayOff := by
  obtain ⟨s, hrun, htasks⟩ := Option.map_eq_some_iff.mp
    (show (run (step plainJson) (start none .absent) endedInWrite).map
      (fun s => s.tasks) = some [.ended] by decide +kernel)
  have hsaved : plainJson.deserialize (plainJson.serialize trayOff) = some trayOff := by
    decide +kernel
  obtain ⟨t, ht, hloaded⟩ := config_recovers (fun bytes h => by cases h)
    hrun (by decide +kernel) (fun phase hphase => List.mem_singleton.mp (htasks ▸ hphase)) hsaved
  exact ⟨s, t, hrun, ht, hloaded⟩

end

end ConfigFiles

end ProxyTun.WindowsGui
