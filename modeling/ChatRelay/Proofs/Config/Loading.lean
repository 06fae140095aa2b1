import ChatRelay.Proofs.Config.Settings
import Mathlib.Data.List.Forall2

/-!
# Which configuration is loaded

Loading makes checks in a fixed order: each setting that counts has to be read, in the order of the
table, and then the rules have to hold (`checks`). A load either reports the first check that fails
(`First`), or all pass and the configuration says what the variables say, with defaults for the rest
(`AppConfig.IsGiven`). The two are put together along the program in `Outcome`, one lemma for a step
of each form and one for each part of the program, up to `load_decided`.
-/

namespace ChatRelay.Config

/-! ## What variables give -/

namespace Variables

variable {vars : Variables} {name : String} {k : Kind} {dflt v : k.Value}

/-- The variable is set to a text that stands for the value. -/
def Says (vars : Variables) (name : String) (k : Kind) (v : k.Value) : Prop :=
  ∃ t, vars.Given name t ∧ k.Denotes t v

/-- The variable says the value, or it is not set and the value is the default. -/
def Gives (vars : Variables) (name : String) (k : Kind) (dflt v : k.Value) : Prop :=
  vars.Says name k v ∨ vars.Unset name ∧ v = dflt

theorem says_iff : vars.Says name k v ↔ (vars.text? name).bind k.of? = some v := by
  simp only [Says, ← text?_eq_some_iff, ← Kind.of?_eq_some_iff, Option.bind_eq_some_iff]

theorem gives_iff :
    vars.Gives name k dflt v ↔ (vars.text? name).elim (some dflt) k.of? = some v := by
  rw [Gives, says_iff, ← text?_eq_none_iff]
  cases vars.text? name with
  | none => simp [eq_comm]
  | some t => simp

theorem Gives.text (vars : Variables) (name dflt : String) :
    vars.Gives name .text dflt ((vars.text? name).getD dflt) := by
  rw [gives_iff]
  cases vars.text? name <;> rfl

/-- A variable gives one value. -/
theorem Gives.forall_iff (h : vars.Gives name k dflt v) {p : k.Value → Prop} :
    (∀ w, vars.Gives name k dflt w → p w) ↔ p v := by
  rw [gives_iff] at h
  simp only [gives_iff, h, Option.some_inj, forall_eq']

end Variables

/-! ## Checks -/

/-- What can be wrong with a setting: it is not set and has to be, or one of its texts stands for
nothing, of which the first is reported. -/
inductive Setting.Fault (vars : Variables) (s : Setting) : ConfigError → Prop
  | missing (hform : s.form = .required) (h : vars.Unset s.name) : Fault vars s (.missing s.name)
  | unread {before behind : List String} {t : String}
      (hitems : s.Items vars (before ++ t :: behind)) (hbefore : ∀ u ∈ before, s.kind.Reads u)
      (ht : ¬ s.kind.Reads t) : Fault vars s (.invalid s.name t)

/-- A rule that goes beyond the type of one setting, and the setting that is blamed. -/
structure Rule where
  name : String
  reason : String
  Holds : Variables → Prop

/-- The rules, in the order in which they are checked. -/
def rules : List Rule :=
  [⟨"BUCKET_COUNT", "must be > 0", fun vars =>
      ∀ processors : Nat, 0 < processors →
        ∀ n : Nat, vars.Gives "BUCKET_COUNT" .count processors n → 0 < n⟩,
    ⟨"BUCKET_ROUTINE_AMOUNT", "must be > 0", fun vars =>
      ∀ n : Nat, vars.Gives "BUCKET_ROUTINE_AMOUNT" .count (32 : Nat) n → 0 < n⟩,
    ⟨"BROADCAST_SIZE", "must be > 0", fun vars =>
      ∀ n : Nat, vars.Gives "BROADCAST_SIZE" .count (512 : Nat) n → 0 < n⟩,
    ⟨"PING_PERIOD_SECS", "must be shorter than PONG_WAIT_SECS", fun vars =>
      ∀ ping : Nat, vars.Gives "PING_PERIOD_SECS" .count (54 : Nat) ping →
        ∀ pong : Nat, vars.Gives "PONG_WAIT_SECS" .count (60 : Nat) pong → ping < pong⟩,
    ⟨"WORKER_ID", "must be at most 1023", fun vars =>
      ∀ n : Nat, vars.Gives "WORKER_ID" .port (0 : Nat) n → n ≤ 1023⟩]

inductive Check where
  | reads (s : Setting)
  | obeys (r : Rule)

/-- All checks, in their order. -/
def checks : List Check :=
  settings.map .reads ++ rules.map .obeys

/-- The check fails, and how that is reported. -/
inductive Check.Fails (vars : Variables) : Check → ConfigError → Prop
  | reads {s : Setting} {e : ConfigError} (hscope : s.scope.Applies vars) (h : s.Fault vars e) :
      Fails vars (reads s) e
  | obeys {r : Rule} (h : ¬ r.Holds vars) : Fails vars (obeys r) (.invalid r.name r.reason)

def Check.Passes (vars : Variables) (check : Check) : Prop :=
  ∀ e, ¬ check.Fails vars e

/-- The first check that fails, as it is reported. -/
inductive First (vars : Variables) : List Check → ConfigError → Prop
  | here {check : Check} {behind : List Check} {e : ConfigError} (h : check.Fails vars e) :
      First vars (check :: behind) e
  | later {check : Check} {behind : List Check} {e : ConfigError} (h : check.Passes vars)
      (hrest : First vars behind e) : First vars (check :: behind) e

/-- The fault of a setting, as it is computed. -/
def Setting.fault? (vars : Variables) (s : Setting) : Option ConfigError :=
  if s.form = .required ∧ vars.text? s.name = none then some (.missing s.name)
  else ((s.items vars).find? fun t => (s.kind.of? t).isNone).map (.invalid s.name)

namespace Setting

variable {vars : Variables} {s : Setting} {e : ConfigError}

theorem isNone_of?_iff {k : Kind} {t : String} : (k.of? t).isNone = true ↔ ¬ k.Reads t := by
  rw [← Kind.isSome_of?_iff, ← Option.not_isSome, Bool.not_eq_true', Bool.not_eq_true]

/-- The text that is reported is the first that stands for nothing. -/
theorem find?_items_iff {t : String} :
    (s.items vars).find? (fun u => (s.kind.of? u).isNone) = some t ↔
      ¬ s.kind.Reads t ∧ ∃ before behind, s.Items vars (before ++ t :: behind) ∧
        ∀ u ∈ before, s.kind.Reads u := by
  simp only [List.find?_eq_some_iff_append, isNone_of?_iff, items_iff, Bool.not_eq_true',
    Option.isNone_eq_false_iff, Kind.isSome_of?_iff, eq_comm (a := s.items vars)]

theorem fault_iff : s.Fault vars e ↔ s.fault? vars = some e := by
  rw [fault?]
  constructor
  · rintro (⟨hform, h⟩ | ⟨hitems, hbefore, ht⟩)
    · rw [if_pos ⟨hform, Variables.text?_eq_none_iff.mpr h⟩]
    · rw [if_neg, find?_items_iff.mpr ⟨ht, _, _, hitems, hbefore⟩, Option.map_some]
      rintro ⟨-, hnone⟩
      rw [items_iff, items, hnone] at hitems
      exact List.append_ne_nil_of_right_ne_nil _ (List.cons_ne_nil _ _) hitems
  · split_ifs with hmissing
    · rintro h
      cases h
      exact .missing hmissing.1 (Variables.text?_eq_none_iff.mp hmissing.2)
    · intro h
      obtain ⟨t, hfind, rfl⟩ := Option.map_eq_some_iff.mp h
      obtain ⟨ht, before, behind, hitems, hbefore⟩ := find?_items_iff.mp hfind
      exact .unread hitems hbefore ht

theorem fault?_eq_none_iff : s.fault? vars = none ↔
    ¬ (s.form = .required ∧ vars.Unset s.name) ∧ ∀ t ∈ s.items vars, s.kind.Reads t := by
  rw [fault?, ← Variables.text?_eq_none_iff]
  split_ifs with hmissing
  · simp [hmissing]
  · simp only [Option.map_eq_none_iff, List.find?_eq_none, isNone_of?_iff, not_not, hmissing,
      not_false_iff, true_and]

end Setting

namespace Check

variable {vars : Variables} {s : Setting} {r : Rule} {check : Check} {e e' : ConfigError}

theorem passes_reads_iff :
    (reads s).Passes vars ↔ (s.scope.Applies vars → s.fault? vars = none) := by
  constructor
  · intro h happlies
    by_contra hfault
    obtain ⟨e, he⟩ := Option.ne_none_iff_exists'.mp hfault
    exact h e (.reads happlies (Setting.fault_iff.mpr he))
  · rintro h e (⟨happlies, hfault⟩ | _)
    rw [Setting.fault_iff, h happlies] at hfault
    cases hfault

theorem passes_obeys_iff : (obeys r).Passes vars ↔ r.Holds vars :=
  ⟨fun h => not_not.mp fun hr => h _ (.obeys hr), fun h _ hfails => by
    cases hfails with
    | obeys hr => exact hr h⟩

/-- A check fails in one way. -/
theorem Fails.unique (h : check.Fails vars e) (h' : check.Fails vars e') : e = e' := by
  cases h with
  | reads _ h =>
    cases h' with
    | reads _ h' =>
      rw [Setting.fault_iff] at h h'
      exact Option.some_inj.mp (h.symm.trans h')
  | obeys _ =>
    cases h' with
    | obeys _ => rfl

end Check

namespace First

variable {vars : Variables} {cs cs' : List Check} {e e' : ConfigError}

theorem append_left (h : First vars cs e) : First vars (cs ++ cs') e := by
  induction h with
  | here h => exact .here h
  | later h _ ih => exact .later h ih

theorem append_right (hclear : ∀ check ∈ cs, check.Passes vars) (h : First vars cs' e) :
    First vars (cs ++ cs') e := by
  induction cs with
  | nil => exact h
  | cons check cs ih =>
    rw [List.forall_mem_cons] at hclear
    exact .later hclear.1 (ih hclear.2)

theorem not_clear (h : First vars cs e) : ¬ ∀ check ∈ cs, check.Passes vars := by
  induction h with
  | here h => exact fun hclear => hclear _ List.mem_cons_self _ h
  | later _ _ ih => exact fun hclear => ih (List.forall_mem_cons.mp hclear).2

/-- One failure is the first. -/
theorem unique (h : First vars cs e) (h' : First vars cs e') : e = e' := by
  induction h with
  | here h =>
    cases h' with
    | here h' => exact h.unique h'
    | later hpass _ => exact absurd h (hpass _)
  | later hpass _ ih =>
    cases h' with
    | here h' => exact absurd h' (hpass _)
    | later _ hrest => exact ih hrest

end First

/-! ## Steps of the program -/

namespace Variables

variable {k : Kind} {name t : String} {texts : List String}

/-- Texts are read in turn up to the first that cannot be. -/
theorem mapM_parse_eq_error (h : texts.find? (fun u => (k.of? u).isNone) = some t) :
    texts.mapM (parse name k.of?) = .error (.invalid name t) := by
  induction texts with
  | nil => cases h
  | cons u texts ih =>
    rw [List.mapM_cons, parse]
    cases hread : k.of? u with
    | none =>
      rw [List.find?_cons_of_pos (by simp [hread])] at h
      cases h
      rfl
    | some v =>
      rw [List.find?_cons_of_neg (by simp [hread])] at h
      rw [ih h]
      rfl

theorem exists_mapM_parse (h : texts.find? (fun u => (k.of? u).isNone) = none) :
    ∃ vs, texts.mapM (parse name k.of?) = .ok vs ∧ List.Forall₂ k.Denotes texts vs := by
  induction texts with
  | nil => exact ⟨[], rfl, .nil⟩
  | cons u texts ih =>
    cases hread : k.of? u with
    | none => simp [hread] at h
    | some v =>
      rw [List.find?_cons_of_neg (by simp [hread])] at h
      obtain ⟨vs, hvs, hdenotes⟩ := ih h
      refine ⟨v :: vs, ?_, .cons (k.of?_eq_some_iff.mp hread) hdenotes⟩
      rw [List.mapM_cons, parse, hread, hvs]
      rfl

end Variables

/-- What a part of the program may come to that makes these checks. -/
inductive Outcome (vars : Variables) (cs : List Check) {α : Type} (P : α → Prop) :
    Except ConfigError α → Prop
  | error {e : ConfigError} (h : First vars cs e) : Outcome vars cs P (.error e)
  | ok {a : α} (hclear : ∀ check ∈ cs, check.Passes vars) (ha : P a) : Outcome vars cs P (.ok a)

namespace Outcome

variable {vars : Variables} {cs cs' : List Check} {s : Setting} {α β : Type} {P : α → Prop}
  {Q : β → Prop} {x : Except ConfigError α} {f : α → Except ConfigError β}

theorem pure {a : α} (ha : P a) : Outcome vars [] P (.ok a) :=
  .ok (List.forall_mem_nil _) ha

theorem append (hx : Outcome vars cs P x) (hf : ∀ a, P a → Outcome vars cs' Q (f a)) :
    Outcome vars (cs ++ cs') Q (x >>= f) := by
  cases hx with
  | error h => exact .error h.append_left
  | @ok a hclear ha =>
    change Outcome vars (cs ++ cs') Q (f a)
    have hfa := hf a ha
    generalize f a = y at hfa ⊢
    cases hfa with
    | error h => exact .error (h.append_right hclear)
    | ok hclear' hb => exact .ok (List.forall_mem_append.mpr ⟨hclear, hclear'⟩) hb

/-- A setting is read, and then the rest follows. -/
theorem bind {check : Check} (hx : Outcome vars [check] P x)
    (hf : ∀ a, P a → Outcome vars cs Q (f a)) : Outcome vars (check :: cs) Q (x >>= f) :=
  append hx hf

/-- A check that passes needs no step. -/
theorem skip {check : Check} (hpass : check.Passes vars) (h : Outcome vars cs P x) :
    Outcome vars (check :: cs) P x := by
  cases h with
  | error h => exact .error (.later hpass h)
  | ok hclear ha => exact .ok (List.forall_mem_cons.mpr ⟨hpass, hclear⟩) ha

theorem skip_all (hpass : ∀ check ∈ cs, check.Passes vars) (h : Outcome vars [] P x) :
    Outcome vars cs P x := by
  induction cs with
  | nil => exact h
  | cons check cs ih =>
    rw [List.forall_mem_cons] at hpass
    exact skip hpass.1 (ih hpass.2)

theorem mono {Q : α → Prop} (h : Outcome vars cs P x) (hPQ : ∀ a, P a → Q a) :
    Outcome vars cs Q x := by
  cases h with
  | error h => exact .error h
  | ok hclear ha => exact .ok hclear (hPQ _ ha)

theorem map (g : α → β) (h : Outcome vars cs P x) (hPQ : ∀ a, P a → Q (g a)) :
    Outcome vars cs Q (x.map g) := by
  cases h with
  | error h => exact .error h
  | ok hclear ha => exact .ok hclear (hPQ _ ha)

section Reading

variable (happlies : s.scope.Applies vars)

include happlies

theorem of_fault? (herror : ∀ e, s.fault? vars = some e → x = .error e)
    (hok : s.fault? vars = none → ∃ a, x = .ok a ∧ P a) : Outcome vars [.reads s] P x := by
  cases hfault : s.fault? vars with
  | none =>
    obtain ⟨a, rfl, ha⟩ := hok hfault
    exact .ok (List.forall_mem_singleton.mpr (Check.passes_reads_iff.mpr fun _ => hfault)) ha
  | some e =>
    rw [herror e hfault]
    exact .error (.here (.reads happlies (Setting.fault_iff.mpr hfault)))

/-- A text that is given is read, or it is at fault. -/
theorem parse {t : String} (hform : s.form ≠ .list) (htext : vars.text? s.name = some t) :
    Outcome vars [.reads s] (fun v => s.kind.of? t = some v)
      (Variables.parse s.name s.kind.of? t) := by
  have hfault : s.fault? vars =
      if (s.kind.of? t).isNone then some (.invalid s.name t) else none := by
    rw [Setting.fault?, Setting.items_of_form_ne_list hform, htext]
    simp [List.find?_singleton, apply_ite (Option.map (ConfigError.invalid s.name))]
  rw [Variables.parse]
  refine of_fault? happlies (fun e he => ?_) fun hnone => ?_
  all_goals cases hread : s.kind.of? t <;> simp_all

/-- A setting that is not set need not be, and is at no fault. -/
theorem unset {a : α} (hform : s.form ≠ .required) (htext : vars.text? s.name = none) (ha : P a) :
    Outcome vars [.reads s] P (.ok a) := by
  have hfault : s.fault? vars = none := by
    rw [Setting.fault?, if_neg fun h => hform h.1, Setting.items, htext]
    rfl
  refine of_fault? happlies (fun e he => ?_) fun _ => ⟨a, rfl, ha⟩
  rw [hfault] at he
  cases he

theorem getD (hform : s.form = .optional) (dflt : s.kind.Value) :
    Outcome vars [.reads s] (vars.Gives s.name s.kind dflt)
      (vars.getD s.name s.kind.of? dflt) := by
  rw [Variables.getD]
  cases htext : vars.text? s.name with
  | none =>
    exact unset happlies (by simp [hform]) htext
      (.inr ⟨Variables.text?_eq_none_iff.mp htext, rfl⟩)
  | some t =>
    refine (parse happlies (by simp [hform]) htext).mono fun v hv => ?_
    rw [Variables.gives_iff, htext]
    exact hv

/-- What is not given is left open, for a default of the host. -/
theorem get? (hform : s.form = .optional) :
    Outcome vars [.reads s] (fun v? => ∀ dflt, vars.Gives s.name s.kind dflt (v?.getD dflt))
      (vars.get? s.name s.kind.of?) := by
  rw [Variables.get?]
  cases htext : vars.text? s.name with
  | none =>
    exact unset happlies (by simp [hform]) htext fun dflt =>
      .inr ⟨Variables.text?_eq_none_iff.mp htext, rfl⟩
  | some t =>
    refine (parse happlies (by simp [hform]) htext).map some fun v hv dflt => ?_
    rw [Variables.gives_iff, htext]
    exact hv

theorem require (hform : s.form = .required) :
    Outcome vars [.reads s] (vars.Says s.name s.kind) (vars.require s.name s.kind.of?) := by
  rw [Variables.require]
  cases htext : vars.text? s.name with
  | none =>
    exact .error (.here (.reads happlies (.missing hform (Variables.text?_eq_none_iff.mp htext))))
  | some t =>
    refine (parse happlies (by simp [hform]) htext).mono fun v hv => ?_
    rw [Variables.says_iff, htext]
    exact hv

/-- The elements of a list stand for the values that are read. -/
theorem list (hform : s.form = .list) :
    Outcome vars [.reads s] (List.Forall₂ s.kind.Denotes (s.items vars))
      (vars.list s.name s.kind.of?) := by
  have hfault : s.fault? vars =
      ((s.items vars).find? fun t => (s.kind.of? t).isNone).map (.invalid s.name) := by
    rw [Setting.fault?, if_neg (by simp [hform])]
  rw [Setting.list_eq hform]
  refine of_fault? happlies (fun e he => ?_) fun hnone => ?_
  · obtain ⟨t, hfind, rfl⟩ := Option.map_eq_some_iff.mp (hfault.symm.trans he)
    exact Variables.mapM_parse_eq_error hfind
  · exact Variables.exists_mapM_parse (Option.map_eq_none_iff.mp (hfault.symm.trans hnone))

end Reading

/-- Every text can be read, so that one that may be left out is never at fault. -/
theorem text {name : String} {form : Form} {scope : Scope} (hform : form ≠ .required)
    (hx : Outcome vars cs P x) :
    Outcome vars (.reads ⟨name, .text, form, scope⟩ :: cs) P x :=
  skip (Check.passes_reads_iff.mpr fun _ => Setting.fault?_eq_none_iff.mpr
    ⟨fun h => hform h.1, fun t _ => ⟨t, rfl⟩⟩) hx

/-- The settings of a scope do not count outside of it. -/
theorem outside {ss : List Setting} {scope : Scope} (hscope : ∀ s ∈ ss, s.scope = scope)
    (hnot : ¬ scope.Applies vars) (hx : Outcome vars [] P x) :
    Outcome vars (ss.map .reads) P x := by
  refine skip_all (List.forall_mem_map.mpr fun s hs => ?_) hx
  rw [Check.passes_reads_iff, hscope s hs]
  exact fun happlies => absurd happlies hnot

/-- A rule is checked, and then the rest follows. -/
theorem guard {r : Rule} {broken : Prop} [Decidable broken] (hrule : r.Holds vars ↔ ¬ broken)
    (hx : Outcome vars cs P x) :
    Outcome vars (.obeys r :: cs) P
      (if broken then .error (.invalid r.name r.reason) else x) := by
  split_ifs with hbroken
  · exact .error (.here (.obeys fun h => hrule.mp h hbroken))
  · exact skip (Check.passes_obeys_iff.mpr (hrule.mpr hbroken)) hx

end Outcome

/-! ## What is loaded -/

/-- The raw listeners are those that the variables describe. -/
structure TcpConfig.IsGiven (vars : Variables) (c : TcpConfig) : Prop where
  ports : ∃ texts, portsSetting.Items vars texts ∧ List.Forall₂ (Kind.Denotes .port) texts c.ports
  acceptors : ∀ processors : Nat,
    vars.Gives "GATEWAY_TCP_ACCEPTORS" .count processors (c.acceptors.getD processors)
  keepalive : vars.Gives "GATEWAY_TCP_KEEPALIVE" .flag false c.keepalive
  receiveBuffer : vars.Gives "GATEWAY_TCP_RECV_BUF" .count (4096 : Nat) c.receiveBuffer
  sendBuffer : vars.Gives "GATEWAY_TCP_SEND_BUF" .count (4096 : Nat) c.sendBuffer

/-- The registry is the one that the variables describe. -/
structure RegistryConfig.IsGiven (vars : Variables) (c : RegistryConfig) : Prop where
  redisUrl : vars "REDIS_URL" = some c.redisUrl
  maxConnections : vars.Gives "REDIS_MAX_CONNECTIONS" .count (10 : Nat) c.maxConnections
  basePath : vars.Gives "REGISTRY_BASE_PATH" .text "chat/connect" c.basePath
  ttlSeconds : vars.Gives "REGISTRY_TTL_SECS" .count (90 : Nat) c.ttlSeconds

namespace AppConfig

/-- The configuration is the one that the variables describe, whatever the host draws or counts. -/
structure IsGiven (vars : Variables) (c : AppConfig) : Prop where
  name : vars.Gives "APP_NAME" .text "chat-gateway" c.name
  environment : vars.Gives "APP_ENV" .environment Environment.development c.environment
  logFormat : vars.Gives "LOG_FORMAT" .logFormat LogFormat.pretty c.logFormat
  host : vars.Gives "GATEWAY_HOST" .text "127.0.0.1" c.host
  wsPort : vars.Says "GATEWAY_WS_PORT" .port c.wsPort
  wsPath : vars.Gives "GATEWAY_WS_PATH" .text "/ws" c.wsPath
  rpcPort : vars.Says "GATEWAY_RPC_PORT" .port c.rpcPort
  serverId : ∀ drawn : String, vars.Gives "GATEWAY_SERVER_ID" .text drawn (c.serverId.getD drawn)
  tcp_eq_none : c.tcp = none ↔ portsSetting.Items vars []
  tcp : ∀ t ∈ c.tcp, t.IsGiven vars
  bucketCount : ∀ processors : Nat,
    vars.Gives "BUCKET_COUNT" .count processors (c.bucketCount.getD processors)
  channelSize : vars.Gives "BUCKET_CHANNEL_SIZE" .count (1024 : Nat) c.channelSize
  roomSize : vars.Gives "BUCKET_ROOM_SIZE" .count (1024 : Nat) c.roomSize
  routineAmount : vars.Gives "BUCKET_ROUTINE_AMOUNT" .count (32 : Nat) c.routineAmount
  routineSize : vars.Gives "BUCKET_ROUTINE_SIZE" .count (20 : Nat) c.routineSize
  writeWait : vars.Gives "WRITE_WAIT_SECS" .count (10 : Nat) c.connection.writeWait
  pongWait : vars.Gives "PONG_WAIT_SECS" .count (60 : Nat) c.connection.pongWait
  pingPeriod : vars.Gives "PING_PERIOD_SECS" .count (54 : Nat) c.connection.pingPeriod
  maxMessageSize : vars.Gives "MAX_MESSAGE_SIZE" .count (512 : Nat) c.connection.maxMessageSize
  writeBufferSize : vars.Gives "WRITE_BUFFER_SIZE" .count (1024 : Nat) c.connection.writeBufferSize
  broadcastSize : vars.Gives "BROADCAST_SIZE" .count (512 : Nat) c.connection.broadcastSize
  logicUrl : vars.Says "LOGIC_URL" .text c.logicUrl
  logicTimeoutMillis : vars.Gives "LOGIC_TIMEOUT_MS" .count (5000 : Nat) c.logicTimeoutMillis
  registry_eq_none : c.registry = none ↔ ∀ url ∈ vars "REDIS_URL", url = ""
  registry : ∀ r ∈ c.registry, r.IsGiven vars
  workerId : vars.Gives "WORKER_ID" .port (0 : Nat) c.workerId

variable {vars : Variables}

theorem outcome_loadTcp : Outcome vars ((portsSetting :: rawSettings).map .reads)
    (fun tcp => (tcp = none ↔ portsSetting.Items vars []) ∧ ∀ t ∈ tcp, t.IsGiven vars)
    (loadTcp vars) := by
  unfold loadTcp
  refine .bind (.list (s := portsSetting) trivial rfl) fun ports hports => ?_
  by_cases hempty : ports = []
  · subst hempty
    have hitems : portsSetting.items vars = [] := List.forall₂_nil_right_iff.mp hports
    have hnot : ¬ Scope.rawListeners.Applies vars := by
      rwa [Scope.applies_rawListeners_iff, not_not]
    refine .outside (by decide) hnot (.pure ⟨?_, fun t ht => nomatch ht⟩)
    exact iff_of_true rfl (Setting.items_iff.mpr hitems.symm)
  · have hitems : portsSetting.items vars ≠ [] := fun h =>
      hempty (List.forall₂_nil_left_iff.mp (by rwa [h] at hports))
    have happlies : Scope.rawListeners.Applies vars := Scope.applies_rawListeners_iff.mpr hitems
    rw [if_neg (by simpa using hempty)]
    refine .bind (.get? happlies rfl) fun acceptors hacceptors => ?_
    refine .bind (.getD happlies rfl _) fun keepalive hkeepalive => ?_
    refine .bind (.getD happlies rfl _) fun receiveBuffer hreceive => ?_
    refine .bind (.getD happlies rfl _) fun sendBuffer hsend => ?_
    refine .pure ⟨iff_of_false nofun fun h => hitems (Setting.items_iff.mp h).symm, ?_⟩
    rintro _ ⟨⟩
    exact ⟨⟨_, Setting.items_iff.mpr rfl, hports⟩, hacceptors, hkeepalive, hreceive, hsend⟩

theorem outcome_loadRegistry : Outcome vars ((urlSetting :: registrySettings).map .reads)
    (fun registry => (registry = none ↔ ∀ url ∈ vars "REDIS_URL", url = "") ∧
      ∀ r ∈ registry, r.IsGiven vars)
    (loadRegistry vars) := by
  unfold loadRegistry
  refine .text (by decide) ?_
  cases hurl : redisUrl? vars with
  | none =>
    have hnot : ¬ Scope.registry.Applies vars := by
      rw [Scope.applies_registry_iff, hurl]
      exact Bool.false_ne_true
    refine .outside (by decide) hnot (.pure ⟨?_, fun r hr => nomatch hr⟩)
    exact iff_of_true rfl (redisUrl?_eq_none_iff.mp hurl)
  | some url =>
    have happlies : Scope.registry.Applies vars := by
      rw [Scope.applies_registry_iff, hurl]
      rfl
    refine .bind (.getD happlies rfl _) fun maxConnections hmax => ?_
    refine .text (by decide) ?_
    refine .bind (.getD happlies rfl _) fun ttlSeconds httl => ?_
    refine .pure ⟨iff_of_false nofun fun h => ?_, ?_⟩
    · rw [redisUrl?_eq_none_iff.mpr h] at hurl
      cases hurl
    · rintro _ ⟨⟩
      exact ⟨(redisUrl?_eq_some_iff.mp hurl).1, hmax, .text _ _ _, httl⟩

/-- All settings are read as the variables describe them, or the first at fault is reported. -/
theorem outcome_read : Outcome vars (settings.map .reads) (IsGiven vars) (read vars) := by
  have halways : Scope.always.Applies vars := trivial
  unfold read
  -- each part of the program makes the checks at the front of the rest of the table
  rw [settings, List.map_append, List.map_append, List.append_assoc]
  refine .append outcome_loadTcp fun tcp htcp => ?_
  refine .append outcome_loadRegistry fun registry hregistry => ?_
  refine .text (by decide) ?_
  refine .bind (.getD halways rfl _) fun environment henvironment => ?_
  refine .bind (.getD halways rfl _) fun logFormat hlogFormat => ?_
  refine .text (by decide) ?_
  refine .bind (.require halways rfl) fun wsPort hwsPort => ?_
  refine .text (by decide) ?_
  refine .bind (.require halways rfl) fun rpcPort hrpcPort => ?_
  refine .text (by decide) ?_
  refine .bind (.get? halways rfl) fun bucketCount hbucketCount => ?_
  refine .bind (.getD halways rfl _) fun channelSize hchannelSize => ?_
  refine .bind (.getD halways rfl _) fun roomSize hroomSize => ?_
  refine .bind (.getD halways rfl _) fun routineAmount hroutineAmount => ?_
  refine .bind (.getD halways rfl _) fun routineSize hroutineSize => ?_
  refine .bind (.getD halways rfl _) fun writeWait hwriteWait => ?_
  refine .bind (.getD halways rfl _) fun pongWait hpongWait => ?_
  refine .bind (.getD halways rfl _) fun pingPeriod hpingPeriod => ?_
  refine .bind (.getD halways rfl _) fun maxMessageSize hmaxMessageSize => ?_
  refine .bind (.getD halways rfl _) fun writeBufferSize hwriteBufferSize => ?_
  refine .bind (.getD halways rfl _) fun broadcastSize hbroadcastSize => ?_
  refine .bind (.require halways rfl) fun logicUrl hlogicUrl => ?_
  refine .bind (.getD halways rfl _) fun logicTimeoutMillis hlogicTimeout => ?_
  refine .bind (.getD halways rfl _) fun workerId hworkerId => ?_
  exact .pure {
    name := .text _ _ _
    environment := henvironment
    logFormat := hlogFormat
    host := .text _ _ _
    wsPort := hwsPort
    wsPath := .text _ _ _
    rpcPort := hrpcPort
    serverId := .text _ _
    tcp_eq_none := htcp.1
    tcp := htcp.2
    bucketCount := hbucketCount
    channelSize := hchannelSize
    roomSize := hroomSize
    routineAmount := hroutineAmount
    routineSize := hroutineSize
    writeWait := hwriteWait
    pongWait := hpongWait
    pingPeriod := hpingPeriod
    maxMessageSize := hmaxMessageSize
    writeBufferSize := hwriteBufferSize
    broadcastSize := hbroadcastSize
    logicUrl := hlogicUrl
    logicTimeoutMillis := hlogicTimeout
    registry_eq_none := hregistry.1
    registry := hregistry.2
    workerId := hworkerId }

theorem outcome_validate {c : AppConfig} (h : c.IsGiven vars) :
    Outcome vars (rules.map .obeys) (fun _ => True) (validate c) := by
  have hreason : "must be at most " ++ toString SequenceId.maxWorker = "must be at most 1023" := by
    decide
  unfold validate
  rw [hreason]
  refine .guard ?_ (.guard ?_ (.guard ?_ (.guard ?_ (.guard ?_ (.pure trivial)))))
  -- the count of buckets has no default of its own, and no number of processors is 0
  · constructor
    · intro hholds hzero
      have hcount : vars.Gives "BUCKET_COUNT" .count (1 : Nat) (c.bucketCount.getD 1) :=
        h.bucketCount 1
      rw [hzero] at hcount
      exact absurd (hholds 1 Nat.one_pos 0 hcount) (Nat.lt_irrefl 0)
    · intro hne processors hpos
      refine (h.bucketCount processors).forall_iff.mpr ?_
      generalize c.bucketCount = count at hne ⊢
      cases count with
      | none => exact hpos
      | some n => exact Nat.pos_of_ne_zero fun hn => hne (congrArg some hn)
  · exact h.routineAmount.forall_iff.trans Nat.pos_iff_ne_zero
  · exact h.broadcastSize.forall_iff.trans Nat.pos_iff_ne_zero
  · exact h.pingPeriod.forall_iff.trans (h.pongWait.forall_iff.trans not_le.symm)
  · exact h.workerId.forall_iff.trans not_lt.symm

/-- A load makes all checks in their order. -/
theorem outcome_load : Outcome vars checks (IsGiven vars) (load vars) := by
  unfold load
  refine .append outcome_read fun c hc => ?_
  rw [← List.append_nil (rules.map Check.obeys)]
  exact .append (outcome_validate hc) fun _ _ => .pure hc

/-! ## Which variables are accepted -/

/-- All that has to be set is, all that counts can be read, and the rules hold. -/
structure Acceptable (vars : Variables) : Prop where
  wsPort : ¬ vars.Unset "GATEWAY_WS_PORT"
  rpcPort : ¬ vars.Unset "GATEWAY_RPC_PORT"
  logicUrl : ¬ vars.Unset "LOGIC_URL"
  readable : ∀ s ∈ settings, s.scope.Applies vars →
    ∀ texts, s.Items vars texts → ∀ t ∈ texts, s.kind.Reads t
  rules : ∀ r ∈ rules, r.Holds vars

theorem acceptable_iff : Acceptable vars ↔ ∀ check ∈ checks, check.Passes vars := by
  simp only [checks, List.forall_mem_append, List.forall_mem_map, Check.passes_reads_iff,
    Check.passes_obeys_iff, Setting.fault?_eq_none_iff]
  constructor
  · intro h
    have hset : ∀ s ∈ settings, s.form = .required → ¬ vars.Unset s.name := by
      have hnames : ∀ s ∈ settings, s.form = .required →
          s.name ∈ ["GATEWAY_WS_PORT", "GATEWAY_RPC_PORT", "LOGIC_URL"] := by decide
      have hall : ∀ name ∈ ["GATEWAY_WS_PORT", "GATEWAY_RPC_PORT", "LOGIC_URL"],
          ¬ vars.Unset name := by
        simp only [List.forall_mem_cons]
        exact ⟨h.wsPort, h.rpcPort, h.logicUrl, List.forall_mem_nil _⟩
      exact fun s hs hform => hall _ (hnames s hs hform)
    exact ⟨fun s hs happlies => ⟨fun hmissing => hset s hs hmissing.1 hmissing.2,
      h.readable s hs happlies _ (Setting.items_iff.mpr rfl)⟩, h.rules⟩
  · rintro ⟨hread, hrules⟩
    have hset (s : Setting) (hs : s ∈ settings) (happlies : s.scope.Applies vars)
        (hform : s.form = .required) : ¬ vars.Unset s.name :=
      fun hunset => (hread s hs happlies).1 ⟨hform, hunset⟩
    refine ⟨?_, ?_, ?_, fun s hs happlies texts htexts => ?_, hrules⟩
    · exact hset ⟨"GATEWAY_WS_PORT", .port, .required, .always⟩ (by decide) trivial rfl
    · exact hset ⟨"GATEWAY_RPC_PORT", .port, .required, .always⟩ (by decide) trivial rfl
    · exact hset ⟨"LOGIC_URL", .text, .required, .always⟩ (by decide) trivial rfl
    · rw [Setting.items_iff.mp htexts]
      exact (hread s hs happlies).2

/-- **What is loaded.** A load succeeds on acceptable variables and no others; what it loads is what
the variables say, with defaults for the rest; it reports the first check that fails; and nothing
but the settings that count has an influence. -/
theorem load_decided (vars : Variables) :
    ((∃ c, load vars = .ok c) ↔ Acceptable vars) ∧
    (∀ c, load vars = .ok c → c.IsGiven vars) ∧
    (∀ e, load vars = .error e ↔ First vars checks e) ∧
    ∀ vars' : Variables, (∀ s ∈ settings, s.scope.Applies vars → vars' s.name = vars s.name) →
      load vars' = load vars := by
  have hcongr (vars' : Variables)
      (h : ∀ s ∈ settings, s.scope.Applies vars → vars' s.name = vars s.name) :
      load vars' = load vars := by
    have hurl : vars' "REDIS_URL" = vars "REDIS_URL" := h urlSetting (by decide) trivial
    refine load_congr (by rw [redisUrl?, redisUrl?, hurl]) fun s hs _ happlies => ?_
    rw [Variables.text?, Variables.text?, h s hs happlies]
  have houtcome : Outcome vars checks (IsGiven vars) (load vars) := outcome_load
  rw [acceptable_iff]
  generalize load vars = x at houtcome hcongr ⊢
  cases houtcome with
  | @error e h =>
    have hno (c : AppConfig) : Except.error e ≠ .ok c := fun hc => by cases hc
    refine ⟨iff_of_false (not_exists.mpr hno) h.not_clear, fun c hc => absurd hc (hno c),
      fun e' => ?_, hcongr⟩
    rw [Except.error.injEq]
    exact ⟨fun he => he ▸ h, h.unique⟩
  | @ok c hclear hc =>
    refine ⟨iff_of_true ⟨c, rfl⟩ hclear, fun c' hc' => ?_, fun e => ?_, hcongr⟩
    · cases hc'
      exact hc
    · exact iff_of_false (fun he => by cases he) fun h => h.not_clear hclear

/-- Of two faults the first is reported, and neither a registry setting without a registry nor an
unknown variable matters. -/
theorem load_decided_instances :
    First (withRequired [("WORKER_ID", "-1"), ("BUCKET_COUNT", "x")]) checks
      (.invalid "BUCKET_COUNT" "x") ∧
    plain.IsGiven (withRequired []) ∧
    load (withRequired [("REGISTRY_TTL_SECS", "soon"), ("OTHER", "x")]) =
      load (withRequired []) := by
  refine ⟨((load_decided _).2.2.1 _).mp (by decide +kernel),
    (load_decided _).2.1 _ (by decide +kernel), (load_decided _).2.2.2 _ fun s hs happlies => ?_⟩
  have hscope : s.scope ≠ .registry := fun h => by
    rw [h, Scope.applies_registry_iff] at happlies
    revert happlies
    decide
  have hsame : ∀ s ∈ settings, s.scope ≠ .registry →
      withRequired [("REGISTRY_TTL_SECS", "soon"), ("OTHER", "x")] s.name =
        withRequired [] s.name := by
    decide
  exact hsame s hs hscope

end AppConfig

end ChatRelay.Config
