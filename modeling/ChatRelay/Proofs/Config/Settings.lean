import ChatRelay.Config.Load
import ChatRelay.Proofs.Text.Grammar

/-!
# The settings of an instance

The table of all settings (`settings`), in the order in which they are read: under which name each
is given, at which type, whether it has to be given, and when it counts. What a variable says is
told here by its text alone: it may be set to a text with blanks around it (`Variables.Given`), and
is not set if it is blank (`Variables.Unset`). A type is a relation between texts and values
(`Kind.Denotes`), and the functions that read texts decide it (`Kind.of?_eq_some_iff`).

The configuration depends on the settings that count, and on nothing else (`AppConfig.load_congr`).
-/

namespace ChatRelay.Config

/-! ## What a variable says -/

namespace Variables

variable {vars : Variables} {name t : String}

/-- The variable is not set, or blank. -/
def Unset (vars : Variables) (name : String) : Prop :=
  ∀ s ∈ vars name, Text.IsBlankText s

/-- The variable is set to this text, up to the blanks around it. -/
def Given (vars : Variables) (name t : String) : Prop :=
  Text.IsCore t ∧ ∃ s ∈ vars name, Text.IsPadded t s

theorem text?_eq_none_iff : vars.text? name = none ↔ vars.Unset name := by
  rw [text?, Unset]
  cases vars name with
  | none => simp
  | some s => simp [Option.filter_some, Text.trim_eq_empty_iff]

theorem text?_eq_some_iff : vars.text? name = some t ↔ vars.Given name t := by
  have hfilter : vars.text? name = some t ↔ (∃ s ∈ vars name, Text.trim s = t) ∧ t ≠ "" := by
    rw [text?, Option.filter_eq_some_iff, Option.map_eq_some_iff]
    simp
  rw [hfilter]
  constructor
  · rintro ⟨⟨s, hs, htrim⟩, hne⟩
    obtain ⟨hcore, hpadded⟩ := (Text.trim_eq_iff hne).mp htrim
    exact ⟨hcore, s, hs, hpadded⟩
  · rintro ⟨hcore, s, hs, hpadded⟩
    exact ⟨⟨s, hs, (Text.trim_eq_iff hcore.ne_empty).mpr ⟨hcore, hpadded⟩⟩, hcore.ne_empty⟩

end Variables

/-! ## Types of settings -/

/-- The types of settings. -/
inductive Kind where
  | text
  | count
  | port
  | flag
  | environment
  | logFormat
  deriving DecidableEq, Repr

namespace Kind

/-- The values of a type. -/
abbrev Value : Kind → Type
  | text => String
  | count | port => Nat
  | flag => Bool
  | environment => Environment
  | logFormat => LogFormat

/-- The text is a numeral, maybe with a plus sign in front. -/
def IsNatural (t : String) (n : Nat) : Prop :=
  Text.IsNumeral t.toList n ∨ ∃ ds, t.toList = '+' :: ds ∧ Text.IsNumeral ds n

/-- The names of a log format. -/
def formatNames : LogFormat → List String
  | .pretty => ["pretty", "text"]
  | .json => ["json"]

/-- The text stands for the value. Letter case does not count in names. -/
def Denotes : (k : Kind) → String → k.Value → Prop
  | text, t, v => t = v
  | count, t, (n : Nat) => IsNatural t n ∧ n < UInt64.size
  | port, t, (n : Nat) => IsNatural t n ∧ n < UInt16.size
  | flag, t, (b : Bool) => t = if b then "true" else "false"
  | environment, t, e => lower t = lower e.name
  | logFormat, t, f => lower t ∈ formatNames f

/-- The text stands for a value of the type. -/
def Reads (k : Kind) (t : String) : Prop :=
  ∃ v, k.Denotes t v

/-- How a text is read at a type. -/
def of? : (k : Kind) → String → Option k.Value
  | text => some
  | count => count?
  | port => port?
  | flag => bool?
  | environment => Environment.ofText?
  | logFormat => LogFormat.ofText?

theorem nat?_eq_some_iff {bound n : Nat} {t : String} :
    nat? bound t = some n ↔ IsNatural t n ∧ n < bound := by
  rw [nat?, Text.Decimal.natBelow?, Option.filter_eq_some_iff, Text.Decimal.unsigned?_eq_some_iff,
    decide_eq_true_iff, IsNatural]

theorem bool?_eq_some_iff {t : String} {b : Bool} :
    bool? t = some b ↔ t = if b then "true" else "false" := by
  unfold bool?
  cases b <;> split_ifs with h₁ h₂ <;> simp_all

theorem environment_eq_some_iff {t : String} {e : Environment} :
    Environment.ofText? t = some e ↔ lower t = lower e.name := by
  have hproduction : lower Environment.production.name = "production" := by decide
  have hstaging : lower Environment.staging.name = "staging" := by decide
  have hdevelopment : lower Environment.development.name = "development" := by decide
  unfold Environment.ofText?
  dsimp only
  cases e <;> split_ifs with h₁ h₂ h₃ <;> simp_all

theorem logFormat_eq_some_iff {t : String} {f : LogFormat} :
    LogFormat.ofText? t = some f ↔ lower t ∈ formatNames f := by
  unfold LogFormat.ofText?
  dsimp only
  cases f <;> split_ifs with h₁ h₂ <;> simp_all [formatNames]
  rcases h₁ with h₁ | h₁ <;> simp [h₁]

theorem of?_eq_some_iff (k : Kind) {t : String} {v : k.Value} :
    k.of? t = some v ↔ k.Denotes t v := by
  cases k with
  | text => exact Option.some_inj
  | count | port => exact nat?_eq_some_iff
  | flag => exact bool?_eq_some_iff
  | environment => exact environment_eq_some_iff
  | logFormat => exact logFormat_eq_some_iff

theorem isSome_of?_iff {k : Kind} {t : String} : (k.of? t).isSome = true ↔ k.Reads t := by
  rw [Option.isSome_iff_exists]
  exact exists_congr fun v => k.of?_eq_some_iff

end Kind

/-! ## The table -/

/-- How a setting is given. -/
inductive Form where
  | optional
  | required
  /-- Values between commas, maybe none. -/
  | list
  deriving DecidableEq, Repr

/-- When a setting counts. -/
inductive Scope where
  | always
  /-- Only if there are ports for raw connections. -/
  | rawListeners
  /-- Only if there is a registry. -/
  | registry
  deriving DecidableEq, Repr

/-- A setting. -/
structure Setting where
  name : String
  kind : Kind
  form : Form
  scope : Scope
  deriving DecidableEq, Repr

/-- The ports for raw connections. -/
def portsSetting : Setting := ⟨"GATEWAY_TCP_PORTS", .port, .list, .always⟩

/-- What counts only with ports for raw connections. -/
def rawSettings : List Setting :=
  [⟨"GATEWAY_TCP_ACCEPTORS", .count, .optional, .rawListeners⟩,
    ⟨"GATEWAY_TCP_KEEPALIVE", .flag, .optional, .rawListeners⟩,
    ⟨"GATEWAY_TCP_RECV_BUF", .count, .optional, .rawListeners⟩,
    ⟨"GATEWAY_TCP_SEND_BUF", .count, .optional, .rawListeners⟩]

/-- The registry. Its URL is taken as it stands. -/
def urlSetting : Setting := ⟨"REDIS_URL", .text, .optional, .always⟩

/-- What counts only with a registry. -/
def registrySettings : List Setting :=
  [⟨"REDIS_MAX_CONNECTIONS", .count, .optional, .registry⟩,
    ⟨"REGISTRY_BASE_PATH", .text, .optional, .registry⟩,
    ⟨"REGISTRY_TTL_SECS", .count, .optional, .registry⟩]

/-- What always counts. -/
def generalSettings : List Setting :=
  [⟨"APP_NAME", .text, .optional, .always⟩,
    ⟨"APP_ENV", .environment, .optional, .always⟩,
    ⟨"LOG_FORMAT", .logFormat, .optional, .always⟩,
    ⟨"GATEWAY_HOST", .text, .optional, .always⟩,
    ⟨"GATEWAY_WS_PORT", .port, .required, .always⟩,
    ⟨"GATEWAY_WS_PATH", .text, .optional, .always⟩,
    ⟨"GATEWAY_RPC_PORT", .port, .required, .always⟩,
    ⟨"GATEWAY_SERVER_ID", .text, .optional, .always⟩,
    ⟨"BUCKET_COUNT", .count, .optional, .always⟩,
    ⟨"BUCKET_CHANNEL_SIZE", .count, .optional, .always⟩,
    ⟨"BUCKET_ROOM_SIZE", .count, .optional, .always⟩,
    ⟨"BUCKET_ROUTINE_AMOUNT", .count, .optional, .always⟩,
    ⟨"BUCKET_ROUTINE_SIZE", .count, .optional, .always⟩,
    ⟨"WRITE_WAIT_SECS", .count, .optional, .always⟩,
    ⟨"PONG_WAIT_SECS", .count, .optional, .always⟩,
    ⟨"PING_PERIOD_SECS", .count, .optional, .always⟩,
    ⟨"MAX_MESSAGE_SIZE", .count, .optional, .always⟩,
    ⟨"WRITE_BUFFER_SIZE", .count, .optional, .always⟩,
    ⟨"BROADCAST_SIZE", .count, .optional, .always⟩,
    ⟨"LOGIC_URL", .text, .required, .always⟩,
    ⟨"LOGIC_TIMEOUT_MS", .count, .optional, .always⟩,
    ⟨"WORKER_ID", .port, .optional, .always⟩]

/-- All settings, in the order in which they are read. -/
def settings : List Setting :=
  (portsSetting :: rawSettings) ++ (urlSetting :: registrySettings) ++ generalSettings

/-! ## What is read for a setting -/

/-- The pieces that are not blank, without the blanks around them. -/
inductive Elements : List (List Char) → List String → Prop
  | nil : Elements [] []
  | blank {piece : List Char} {pieces : List (List Char)} {texts : List String}
      (h : Text.IsBlankText (String.ofList piece)) (hrest : Elements pieces texts) :
      Elements (piece :: pieces) texts
  | text {piece : List Char} {pieces : List (List Char)} {texts : List String} {t : String}
      (hcore : Text.IsCore t) (h : Text.IsPadded t (String.ofList piece))
      (hrest : Elements pieces texts) : Elements (piece :: pieces) (t :: texts)

/-- The texts that are read for a setting: none if it is not set, the elements of a list, and
otherwise one. -/
def Setting.Items (vars : Variables) (s : Setting) (texts : List String) : Prop :=
  vars.Unset s.name ∧ texts = [] ∨
    ∃ t, vars.Given s.name t ∧
      if s.form = .list then Elements (t.toList.splitOn ',') texts else texts = [t]

/-- The setting counts. -/
def Scope.Applies (vars : Variables) : Scope → Prop
  | always => True
  | rawListeners => ∃ t texts, portsSetting.Items vars (t :: texts)
  | registry => ∃ url ∈ vars "REDIS_URL", url ≠ ""

/-- The texts that are read for a setting, as they are computed. -/
def Setting.items (vars : Variables) (s : Setting) : List String :=
  match vars.text? s.name with
  | none => []
  | some t =>
    if s.form = .list then
      ((Text.split ',' t).map Text.trim).filter fun u => !u.isEmpty
    else [t]

theorem elements_iff {pieces : List (List Char)} {texts : List String} : Elements pieces texts ↔
    texts = ((pieces.map String.ofList).map Text.trim).filter fun u => !u.isEmpty := by
  constructor
  · intro h
    induction h with
    | nil => rfl
    | blank h _ ih =>
      rw [List.map_cons, List.map_cons, Text.trim_eq_empty_iff.mpr h, ih]
      rfl
    | text hcore h _ ih =>
      have hne := hcore.ne_empty
      rw [List.map_cons, List.map_cons, (Text.trim_eq_iff hne).mpr ⟨hcore, h⟩,
        List.filter_cons_of_pos (by simpa using hne), ih]
  · rintro rfl
    induction pieces with
    | nil => exact .nil
    | cons piece pieces ih =>
      by_cases h : Text.trim (String.ofList piece) = ""
      · rw [List.map_cons, List.map_cons, h]
        exact .blank (Text.trim_eq_empty_iff.mp h) ih
      · rw [List.map_cons, List.map_cons, List.filter_cons_of_pos (by simpa using h)]
        exact .text (Text.isCore_trim h) (Text.isPadded_trim _) ih

namespace Setting

variable {vars vars' : Variables} {s : Setting}

theorem items_iff {texts : List String} : s.Items vars texts ↔ texts = s.items vars := by
  rw [Items, items, ← Variables.text?_eq_none_iff]
  simp only [← Variables.text?_eq_some_iff]
  cases vars.text? s.name with
  | none => simp
  | some t => simp [elements_iff, Text.split, Text.splitChars_eq_splitOn, apply_ite (texts = ·)]

theorem items_of_form_ne_list (h : s.form ≠ .list) : s.items vars = (vars.text? s.name).toList := by
  rw [items]
  cases vars.text? s.name with
  | none => rfl
  | some t => exact if_neg h

/-- The elements of a list are read in turn. -/
theorem list_eq (h : s.form = .list) : vars.list s.name s.kind.of? =
    (s.items vars).mapM (Variables.parse s.name s.kind.of?) := by
  rw [Variables.list, items]
  cases vars.text? s.name with
  | none => rfl
  | some t => simp only [h, if_true]

end Setting

namespace AppConfig

variable {vars : Variables} {url : String}

theorem redisUrl?_eq_some_iff :
    redisUrl? vars = some url ↔ vars "REDIS_URL" = some url ∧ url ≠ "" := by
  rw [redisUrl?, Option.filter_eq_some_iff]
  simp

theorem redisUrl?_eq_none_iff : redisUrl? vars = none ↔ ∀ url ∈ vars "REDIS_URL", url = "" := by
  rw [redisUrl?, Option.filter_eq_none_iff]
  simp

end AppConfig

namespace Scope

variable {vars : Variables}

theorem applies_rawListeners_iff :
    rawListeners.Applies vars ↔ portsSetting.items vars ≠ [] := by
  simp only [Applies, Setting.items_iff]
  exact ⟨fun ⟨_, _, h⟩ => h ▸ List.cons_ne_nil _ _, fun h =>
    (List.exists_cons_of_ne_nil h).imp fun _ => Exists.imp fun _ => Eq.symm⟩

theorem applies_registry_iff :
    registry.Applies vars ↔ (AppConfig.redisUrl? vars).isSome = true := by
  simp only [Applies, Option.isSome_iff_exists, AppConfig.redisUrl?_eq_some_iff, Option.mem_def]

end Scope

/-! ## What a configuration depends on -/

namespace AppConfig

open Variables

variable {vars vars' : Variables}

theorem loadTcp_congr (hports : vars'.text? portsSetting.name = vars.text? portsSetting.name)
    (h : Scope.rawListeners.Applies vars →
      ∀ s ∈ rawSettings, vars'.text? s.name = vars.text? s.name) :
    loadTcp vars' = loadTcp vars := by
  have hlist : list vars' "GATEWAY_TCP_PORTS" port? = list vars "GATEWAY_TCP_PORTS" port? := by
    have hports' : vars'.text? "GATEWAY_TCP_PORTS" = vars.text? "GATEWAY_TCP_PORTS" := hports
    rw [list, list, hports']
  have hitems : list vars "GATEWAY_TCP_PORTS" port? =
      (portsSetting.items vars).mapM (parse "GATEWAY_TCP_PORTS" port?) :=
    portsSetting.list_eq rfl
  unfold loadTcp
  rw [hlist]
  by_cases hempty : portsSetting.items vars = []
  · rw [hitems, hempty]
    rfl
  · have hraw := h (Scope.applies_rawListeners_iff.mpr hempty)
    simp only [rawSettings, List.forall_mem_cons] at hraw
    simp only [get?, getD, hraw]

theorem loadRegistry_congr (hurl : redisUrl? vars' = redisUrl? vars)
    (h : Scope.registry.Applies vars →
      ∀ s ∈ registrySettings, vars'.text? s.name = vars.text? s.name) :
    loadRegistry vars' = loadRegistry vars := by
  unfold loadRegistry
  rw [hurl]
  cases hredis : redisUrl? vars with
  | none => rfl
  | some url =>
    have hregistry := h (Scope.applies_registry_iff.mpr (by rw [hredis]; rfl))
    simp only [registrySettings, List.forall_mem_cons] at hregistry
    simp only [getD, hregistry]

/-- **What counts decides.** Variables of settings that do not count, and of no setting, do not
change the configuration or the fault. -/
theorem load_congr (hurl : redisUrl? vars' = redisUrl? vars)
    (h : ∀ s ∈ settings, s ≠ urlSetting → s.scope.Applies vars →
      vars'.text? s.name = vars.text? s.name) :
    load vars' = load vars := by
  have hmem {s : Setting} (hs : s ∈ rawSettings ∨ s ∈ registrySettings ∨ s ∈ generalSettings) :
      s ∈ settings := by
    simp only [settings, List.mem_append, List.mem_cons]
    tauto
  have htcp : loadTcp vars' = loadTcp vars := by
    refine loadTcp_congr (h portsSetting (by decide) (by decide) trivial) fun happlies s hs => ?_
    have hscope : ∀ s ∈ rawSettings, s.scope = .rawListeners ∧ s ≠ urlSetting := by decide
    exact h s (hmem (.inl hs)) (hscope s hs).2 ((hscope s hs).1 ▸ happlies)
  have hregistry : loadRegistry vars' = loadRegistry vars := by
    refine loadRegistry_congr hurl fun happlies s hs => ?_
    have hscope : ∀ s ∈ registrySettings, s.scope = .registry ∧ s ≠ urlSetting := by decide
    exact h s (hmem (.inr (.inl hs))) (hscope s hs).2 ((hscope s hs).1 ▸ happlies)
  have hgeneral : ∀ s ∈ generalSettings, vars'.text? s.name = vars.text? s.name := by
    have hscope : ∀ s ∈ generalSettings, s.scope = .always ∧ s ≠ urlSetting := by decide
    intro s hs
    exact h s (hmem (.inr (.inr hs))) (hscope s hs).2 ((hscope s hs).1 ▸ trivial)
  simp only [generalSettings, List.forall_mem_cons] at hgeneral
  unfold load read
  simp only [htcp, hregistry, get?, getD, require, hgeneral]

/-! ## The least that is set -/

/-- The variables that have to be set. -/
def required : List (String × String) :=
  [("GATEWAY_WS_PORT", "8080"), ("GATEWAY_RPC_PORT", "8081"),
    ("LOGIC_URL", "http://127.0.0.1:6900")]

/-- The required variables, with others in front of them. -/
def withRequired (others : List (String × String)) : Variables :=
  fun name => (others ++ required).lookup name

/-- The configuration that the required variables describe. -/
def plain : AppConfig where
  name := "chat-gateway"
  environment := .development
  logFormat := .pretty
  host := "127.0.0.1"
  wsPort := 8080
  wsPath := "/ws"
  rpcPort := 8081
  serverId := none
  tcp := none
  bucketCount := none
  channelSize := 1024
  roomSize := 1024
  routineAmount := 32
  routineSize := 20
  connection := .standard
  logicUrl := "http://127.0.0.1:6900"
  logicTimeoutMillis := 5000
  registry := none
  workerId := 0

end AppConfig

end ChatRelay.Config
