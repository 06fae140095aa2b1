import ChatRelay.Proofs.Text.Grammar
import ChatRelay.Registry.Entry

/-!
# What metadata says

Metadata is a list of pairs `name=value` between separators, and nothing in it is escaped. Reading
it takes of each name the last pair that has a value (`SaysLast`), whatever stands in front of it:
an identifier with a separator in it is cut off there, and what follows may be a pair of its own. An
entry is therefore read back from its metadata exactly if neither its identifier nor its type is
empty or holds the separator (`metadata_read_exactly`).
-/

namespace ChatRelay.ServiceEntry

/-- The pair that gives a name a value. -/
def pair (name value : String) : List Char :=
  name.toList ++ '=' :: value.toList

/-- Metadata gives the name this value in one of its pairs, and the value is not empty. -/
def Says (metadata name value : String) : Prop :=
  value ≠ "" ∧ pair name value ∈ metadata.toList.splitOn '&'

/-- It does so in a pair behind which it gives the name no other value. -/
def SaysLast (metadata name value : String) : Prop :=
  value ≠ "" ∧ ∃ before behind,
    metadata.toList.splitOn '&' = before ++ pair name value :: behind ∧
      ∀ other ≠ "", pair name other ∉ behind

variable {metadata name value : String}

theorem SaysLast.says (h : SaysLast metadata name value) : Says metadata name value := by
  obtain ⟨hne, before, behind, hpairs, -⟩ := h
  exact ⟨hne, hpairs ▸ List.mem_append_right before List.mem_cons_self⟩

/-- A value does not hold the separator. -/
theorem Says.notMem (h : Says metadata name value) : '&' ∉ value.toList := fun hmem =>
  Text.notMem_of_mem_splitOn h.2 (List.mem_append_right _ (List.mem_cons_of_mem '=' hmem))

theorem splitOnce?_pair (hname : '=' ∉ name.toList) :
    Text.splitOnce? '=' (pair name value) = some (name.toList, value.toList) :=
  Text.splitOnce?_eq_some_iff.mpr ⟨hname, rfl⟩

/-- A pair says which name it is for. -/
theorem name_eq_of_pair_eq {other value' : String} (hname : '=' ∉ name.toList)
    (hother : '=' ∉ other.toList) (h : pair name value = pair other value') : name = other := by
  have hsplit : Text.splitOnce? '=' (pair name value) = some (name.toList, value.toList) :=
    splitOnce?_pair hname
  rw [h, splitOnce?_pair hother, Option.some_inj, Prod.mk.injEq] at hsplit
  exact String.toList_inj.mp hsplit.1.symm

/-! ## The last value of a name -/

/-- The value that a piece of metadata gives a name. -/
def valueIn? (name : String) (piece : List Char) : Option String :=
  match Text.splitOnce? '=' piece with
  | some (key, value) =>
    if key = name.toList ∧ value ≠ [] then some (String.ofList value) else none
  | none => none

theorem lastValue?_eq (name : String) (pieces : List (List Char)) :
    lastValue? name pieces = pieces.reverse.findSome? (valueIn? name) :=
  List.getLast?_filterMap

theorem valueIn?_eq_some_iff (hname : '=' ∉ name.toList) {piece : List Char} :
    valueIn? name piece = some value ↔ value ≠ "" ∧ piece = pair name value := by
  constructor
  · intro h
    unfold valueIn? at h
    split at h
    · next key text hsplit =>
      obtain ⟨⟨rfl, htext⟩, hvalue⟩ := Option.ite_none_right_eq_some.mp h
      obtain rfl := Option.some_inj.mp hvalue
      refine ⟨fun hempty => htext ?_, ?_⟩
      · rw [← String.toList_ofList (l := text), hempty, String.toList_empty]
      · rw [pair, String.toList_ofList]
        exact (Text.splitOnce?_eq_some_iff.mp hsplit).2
    · cases h
  · rintro ⟨hne, rfl⟩
    have htext : value.toList ≠ [] := mt String.toList_eq_nil_iff.mp hne
    rw [valueIn?, splitOnce?_pair hname]
    simp only [htext, ne_eq, not_false_eq_true, and_self, if_true, String.ofList_toList]

theorem valueIn?_pair (hname : '=' ∉ name.toList) (hne : value ≠ "") :
    valueIn? name (pair name value) = some value :=
  (valueIn?_eq_some_iff hname).mpr ⟨hne, rfl⟩

theorem lastValue?_eq_some_iff (hname : '=' ∉ name.toList) :
    lastValue? name (metadata.toList.splitOn '&') = some value ↔ SaysLast metadata name value := by
  rw [lastValue?_eq, List.findSome?_eq_some_iff, SaysLast]
  constructor
  · rintro ⟨behind, piece, before, hpieces, hvalue, hnone⟩
    obtain ⟨hne, rfl⟩ := (valueIn?_eq_some_iff hname).mp hvalue
    refine ⟨hne, before.reverse, behind.reverse, by simpa using congrArg List.reverse hpieces, ?_⟩
    intro other hother hmem
    have hsome := hnone _ (List.mem_reverse.mp hmem)
    rw [valueIn?_pair hname hother] at hsome
    cases hsome
  · rintro ⟨hne, before, behind, hpieces, hnone⟩
    refine ⟨behind.reverse, _, before.reverse, by simp [hpieces], valueIn?_pair hname hne, ?_⟩
    intro piece hpiece
    rw [Option.eq_none_iff_forall_ne_some]
    intro other hsome
    obtain ⟨hother, rfl⟩ := (valueIn?_eq_some_iff hname).mp hsome
    exact hnone other hother (List.mem_reverse.mp hpiece)

theorem lastValue?_eq_none_iff (hname : '=' ∉ name.toList) :
    lastValue? name (metadata.toList.splitOn '&') = none ↔
      ∀ value, ¬ Says metadata name value := by
  simp only [lastValue?_eq, List.findSome?_eq_none_iff, List.mem_reverse]
  constructor
  · rintro hnone value ⟨hne, hmem⟩
    have hsome := hnone _ hmem
    rw [valueIn?_pair hname hne] at hsome
    cases hsome
  · intro hnone piece hpiece
    rw [Option.eq_none_iff_forall_ne_some]
    intro value hsome
    obtain ⟨hne, rfl⟩ := (valueIn?_eq_some_iff hname).mp hsome
    exact hnone value ⟨hne, hpiece⟩

/-! ## Entries -/

theorem serverId_notMem : '=' ∉ "serverId".toList := by decide

theorem serverType_notMem : '=' ∉ "serverType".toList := by decide

theorem ofMetadata?_eq_none_iff (address : String) : ofMetadata? address metadata = none ↔
    (∀ value, ¬ Says metadata "serverId" value) ∨ ∀ value, ¬ Says metadata "serverType" value := by
  rw [ofMetadata?, Text.splitChars_eq_splitOn, Option.bind_eq_none_iff,
    ← lastValue?_eq_none_iff serverId_notMem, ← lastValue?_eq_none_iff serverType_notMem]
  simp only [Option.map_eq_none_iff]
  cases lastValue? "serverId" (metadata.toList.splitOn '&') <;> simp

theorem ofMetadata?_eq_some_iff {address : String} {e : ServiceEntry} :
    ofMetadata? address metadata = some e ↔ SaysLast metadata "serverId" e.serverId ∧
      SaysLast metadata "serverType" e.serverType ∧ e.address = address := by
  rw [ofMetadata?, Text.splitChars_eq_splitOn, ← lastValue?_eq_some_iff serverId_notMem,
    ← lastValue?_eq_some_iff serverType_notMem]
  simp only [Option.bind_eq_some_iff, Option.map_eq_some_iff]
  constructor
  · rintro ⟨serverId, hid, serverType, htype, rfl⟩
    exact ⟨hid, htype, rfl⟩
  · rintro ⟨hid, htype, rfl⟩
    exact ⟨_, hid, _, htype, rfl⟩

/-- The two pairs of the metadata of an entry. -/
theorem splitOn_metadata {e : ServiceEntry} (hid : '&' ∉ e.serverId.toList)
    (htype : '&' ∉ e.serverType.toList) : e.metadata.toList.splitOn '&' =
      [pair "serverId" e.serverId, pair "serverType" e.serverType] := by
  have hid' : '&' ∉ pair "serverId" e.serverId := by simpa [pair] using hid
  have htype' : '&' ∉ pair "serverType" e.serverType := by simpa [pair] using htype
  have hmetadata : e.metadata.toList =
      pair "serverId" e.serverId ++ '&' :: pair "serverType" e.serverType := by
    simp [metadata, pair]
  rw [hmetadata, List.splitOn_append_cons_self_of_not_mem hid', List.splitOn_eq_singleton htype']

/-- What the metadata of an entry says is read back, whatever the address is. -/
theorem ofMetadata?_metadata_of_notMem {e : ServiceEntry} (hid : e.serverId ≠ "")
    (htype : e.serverType ≠ "") (hid' : '&' ∉ e.serverId.toList)
    (htype' : '&' ∉ e.serverType.toList) (address : String) :
    ofMetadata? address e.metadata = some ⟨e.serverId, e.serverType, address⟩ := by
  have hpairs := splitOn_metadata hid' htype'
  rw [ofMetadata?_eq_some_iff]
  refine ⟨⟨hid, [], _, hpairs, fun other _ hmem => ?_⟩, ⟨htype, [_], [], hpairs, nofun⟩, rfl⟩
  have hname := name_eq_of_pair_eq serverId_notMem serverType_notMem (List.mem_singleton.mp hmem)
  exact absurd hname (by decide)

/-- **Metadata is read exactly.** An entry is read back from its metadata if and only if neither its
identifier nor its type is empty or holds a separator. Of any metadata, the last value of each of
the two names is read, up to the next separator, and nothing is read exactly if one of them has
none. -/
theorem metadata_read_exactly :
    (∀ e : ServiceEntry, ofMetadata? e.address e.metadata = some e ↔
      (e.serverId ≠ "" ∧ e.serverType ≠ "") ∧
        '&' ∉ e.serverId.toList ∧ '&' ∉ e.serverType.toList) ∧
    ∀ address metadata,
      (ofMetadata? address metadata = none ↔
        (∀ value, ¬ Says metadata "serverId" value) ∨
          ∀ value, ¬ Says metadata "serverType" value) ∧
      ∀ e, ofMetadata? address metadata = some e ↔
        SaysLast metadata "serverId" e.serverId ∧ SaysLast metadata "serverType" e.serverType ∧
          e.address = address := by
  refine ⟨fun e => ⟨fun h => ?_, fun ⟨⟨hid, htype⟩, hid', htype'⟩ => ?_⟩, fun address metadata =>
    ⟨ofMetadata?_eq_none_iff address, fun e => ofMetadata?_eq_some_iff⟩⟩
  · obtain ⟨hid, htype, -⟩ := ofMetadata?_eq_some_iff.mp h
    exact ⟨⟨hid.1, htype.1⟩, hid.says.notMem, htype.says.notMem⟩
  · exact ofMetadata?_metadata_of_notMem hid htype hid' htype' e.address

end ChatRelay.ServiceEntry
