import ChatRelay.Proofs.Config.Settings

/-!
# Blanks around settings

Blanks around the text of a variable do not count, and a blank text counts as none. Every setting is
read so but one: the registry's URL is taken as it stands, so that a blank URL is one
(`blank_url_counts`), and blanks around a URL remain in the configuration. Where the URL is the
same, lookups that differ in blanks describe the same configuration or are at fault alike; where
both have one, nothing but the URL differs, and where one has none, it is described without a
registry (`load_of_sameButBlanks`).
-/

namespace ChatRelay.Config

/-- Two texts of a variable differ in the blanks around them at most. One that is blank counts as
none. -/
inductive SameButBlanks : Option String → Option String → Prop
  | padded {core s s' : String} (h : Text.IsPadded core s) (h' : Text.IsPadded core s') :
      SameButBlanks (some s) (some s')
  | unset {v v' : Option String} (h : ∀ s ∈ v, Text.IsBlankText s)
      (h' : ∀ s ∈ v', Text.IsBlankText s) : SameButBlanks v v'

theorem SameButBlanks.refl : ∀ v, SameButBlanks v v
  | none => .unset nofun nofun
  | some s => .padded (Text.isPadded_self s) (Text.isPadded_self s)

namespace Variables

variable {vars vars' : Variables} {name : String}

theorem text?_of_sameButBlanks (h : SameButBlanks (vars name) (vars' name)) :
    vars'.text? name = vars.text? name := by
  rw [text?, text?]
  generalize vars name = v at h
  generalize vars' name = v' at h
  cases h with
  | padded h h' => rw [Option.map_some, Option.map_some, h.trim_eq, h'.trim_eq]
  | unset h h' =>
    have hnone : ∀ u : Option String, (∀ s ∈ u, Text.IsBlankText s) →
        ((u.map Text.trim).filter fun s => !s.isEmpty) = none := by
      rintro (_ | s) hu
      · rfl
      · rw [Option.map_some, Text.trim_eq_empty_iff.mpr (hu s rfl)]
        rfl
    rw [hnone v h, hnone v' h']

end Variables

namespace AppConfig

open Variables

variable {vars vars' : Variables} {url url' : String}

/-- The text of the registry's URL, where none counts as an empty one. -/
def urlText (vars : Variables) : String :=
  (vars "REDIS_URL").getD ""

theorem redisUrl?_eq (vars : Variables) :
    redisUrl? vars = if urlText vars = "" then none else some (urlText vars) := by
  rw [redisUrl?, urlText]
  cases vars "REDIS_URL" with
  | none => rfl
  | some url => by_cases hurl : url = "" <;> simp [hurl]

/-- The configuration with another URL of its registry, if it has one. -/
def withUrl (url : String) (c : AppConfig) : AppConfig :=
  { c with registry := c.registry.map fun r => { r with redisUrl := url } }

theorem loadRegistry_withUrl (hurl : redisUrl? vars = some url)
    (hurl' : redisUrl? vars' = some url') (h : ∀ name, vars'.text? name = vars.text? name) :
    loadRegistry vars' =
      Option.map (fun r => { r with redisUrl := url' }) <$> loadRegistry vars := by
  unfold loadRegistry
  rw [hurl, hurl']
  simp only [getD, h, map_bind, map_pure, Option.map_some]

/-- Nothing else depends on which URL the registry has. -/
theorem load_withUrl (hurl : redisUrl? vars = some url) (hurl' : redisUrl? vars' = some url')
    (h : ∀ name, vars'.text? name = vars.text? name) :
    load vars' = withUrl url' <$> load vars := by
  have htcp : loadTcp vars' = loadTcp vars := loadTcp_congr (h _) fun _ s _ => h s.name
  have hvalidate (c : AppConfig) : validate (withUrl url' c) = validate c := rfl
  have hread : read vars' = withUrl url' <$> read vars := by
    unfold read
    simp only [htcp, loadRegistry_withUrl hurl hurl' h, get?, getD, require, h, map_bind, map_pure,
      bind_map_left]
    rfl
  unfold load
  simp only [hread, bind_map_left, hvalidate, map_bind, map_pure]

/-- The configuration without its registry. -/
def withoutRegistry (c : AppConfig) : AppConfig :=
  { c with registry := none }

theorem read_withoutRegistry {c' : AppConfig} (hurl : redisUrl? vars = none)
    (h : ∀ name, vars'.text? name = vars.text? name) (hread : read vars' = .ok c') :
    read vars = .ok (withoutRegistry c') := by
  have htcp : loadTcp vars' = loadTcp vars := loadTcp_congr (h _) fun _ s _ => h s.name
  have hnone : loadRegistry vars = .ok none := by
    unfold loadRegistry
    rw [hurl]
    rfl
  have hok {α β : Type} (a : α) (f : α → Except ConfigError β) : (Except.ok a >>= f) = f a := rfl
  unfold read at hread ⊢
  simp only [htcp, get?, getD, require, h] at hread ⊢
  cases hraw : loadTcp vars with
  | error e =>
    rw [hraw] at hread
    cases hread
  | ok tcp =>
    cases hregistry : loadRegistry vars' with
    | error e =>
      rw [hraw, hregistry] at hread
      cases hread
    | ok registry =>
      -- behind the registry both are the same program, which puts it into what it returns
      simp only [hraw, hregistry, hnone, hok] at hread ⊢
      change _ = withoutRegistry <$> Except.ok c'
      rw [← hread]
      simp only [map_bind, map_pure]
      rfl

/-- Without a URL all is loaded that is loaded with one, but for the registry. -/
theorem load_withoutRegistry {c' : AppConfig} (hurl : redisUrl? vars = none)
    (h : ∀ name, vars'.text? name = vars.text? name) (hload : load vars' = .ok c') :
    load vars = .ok (withoutRegistry c') := by
  unfold load at hload ⊢
  cases hread : read vars' with
  | error e =>
    rw [hread] at hload
    cases hload
  | ok c =>
    rw [read_withoutRegistry hurl h hread]
    change (validate c >>= fun _ => pure (withoutRegistry c)) = _
    rw [hread] at hload
    change (validate c >>= fun _ => pure c) = _ at hload
    cases hvalid : validate c with
    | error e =>
      rw [hvalid] at hload
      cases hload
    | ok =>
      rw [hvalid] at hload
      cases hload
      rfl

/-- **Blanks do not count**, but in the registry's URL: lookups that differ only in the blanks
around values, blank values counting as none, load the same configuration or report the same fault
if they have the same URL, none counting as an empty one; if both have a URL, the configurations
differ in it at most; and if one has none, what the other loads is loaded without its registry. -/
theorem load_of_sameButBlanks (h : ∀ name, SameButBlanks (vars name) (vars' name)) :
    (urlText vars = urlText vars' → load vars' = load vars) ∧
    (urlText vars ≠ "" → urlText vars' ≠ "" →
      load vars' = (load vars).map (withUrl (urlText vars'))) ∧
    (urlText vars = "" → ∀ c', load vars' = .ok c' → load vars = .ok (withoutRegistry c')) := by
  have htext : ∀ name, vars'.text? name = vars.text? name :=
    fun name => text?_of_sameButBlanks (h name)
  refine ⟨fun hurl => ?_, fun hne hne' => ?_, fun hempty c' hload => ?_⟩
  · have hredis : redisUrl? vars' = redisUrl? vars := by rw [redisUrl?_eq, redisUrl?_eq, hurl]
    exact load_congr hredis fun s _ _ _ => htext s.name
  · have hurl : redisUrl? vars = some (urlText vars) := by rw [redisUrl?_eq, if_neg hne]
    have hurl' : redisUrl? vars' = some (urlText vars') := by rw [redisUrl?_eq, if_neg hne']
    exact load_withUrl hurl hurl' htext
  · have hurl : redisUrl? vars = none := by rw [redisUrl?_eq, if_pos hempty]
    exact load_withoutRegistry hurl htext hload

/-- Blanks around every value, and a blank log format. -/
def spaced (vars : Variables) : Variables := fun name =>
  if name = "LOG_FORMAT" then some "\t" else (vars name).map fun s => " " ++ s ++ "\u3000"

theorem load_of_sameButBlanks_spaced :
    (∀ name, SameButBlanks (withRequired [("APP_NAME", "relay")] name)
      (spaced (withRequired [("APP_NAME", "relay")]) name)) ∧
    load (withRequired [("APP_NAME", "relay")]) = .ok { plain with name := "relay" } ∧
    load (spaced (withRequired [("APP_NAME", "relay")])) =
      load (withRequired [("APP_NAME", "relay")]) := by
  have hsame (name : String) : SameButBlanks (withRequired [("APP_NAME", "relay")] name)
      (spaced (withRequired [("APP_NAME", "relay")]) name) := by
    rw [spaced]
    split_ifs with hname
    · subst hname
      exact .unset (by decide) (by decide)
    · cases withRequired [("APP_NAME", "relay")] name with
      | none => exact .refl none
      | some s =>
        exact .padded (Text.isPadded_self s) ⟨" ", "\u3000", by decide, by decide, rfl⟩
  exact ⟨hsame, by decide +kernel, (load_of_sameButBlanks hsame).1 (by decide)⟩

/-- A blank URL counts as one, where a variable that is not set does not. -/
theorem blank_url_counts :
    (∀ name, SameButBlanks (withRequired [] name) (withRequired [("REDIS_URL", " ")] name)) ∧
    load (withRequired []) ≠ load (withRequired [("REDIS_URL", " ")]) := by
  refine ⟨fun name => ?_, by decide +kernel⟩
  by_cases hname : name = "REDIS_URL"
  · subst hname
    exact .unset (by decide) (by decide)
  · have hsame : withRequired [("REDIS_URL", " ")] name = withRequired [] name := by
      rw [withRequired, withRequired, List.cons_append, List.lookup_cons, beq_false_of_ne hname]
    rw [hsame]
    exact .refl _

end AppConfig

end ChatRelay.Config
