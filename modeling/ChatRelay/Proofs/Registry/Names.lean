import ChatRelay.Proofs.Registry.Metadata
import Mathlib.Data.Prod.Lex
import Mathlib.Data.String.Basic
import Mathlib.Tactic.SplitIfs

/-!
# Keys and metadata of entries

An entry is cut into a key and metadata and put together again from both. Neither is escaped: the
address ends a key and is found behind the last slash, and the identifier ends at the next `&` of
the metadata. What these two marks would break is therefore kept out of an entry
(`ServiceEntry.IsSound`); other than that its parts may hold anything, `=` and the names of the
metadata included. The key says the type and the address, so that entries of one key differ in their
server at most.
-/

namespace ChatRelay

namespace ServiceEntry

variable {e e' : ServiceEntry}

/-- The parts of the entry can be told apart in its key and in its metadata. -/
structure IsSound (e : ServiceEntry) : Prop where
  serverId_ne : e.serverId ≠ ""
  serverType_ne : e.serverType ≠ ""
  amp_notMem_serverId : '&' ∉ e.serverId.toList
  amp_notMem_serverType : '&' ∉ e.serverType.toList
  slash_notMem_address : '/' ∉ e.address.toList

instance (e : ServiceEntry) : Decidable e.IsSound :=
  decidable_of_iff
    (e.serverId ≠ "" ∧ e.serverType ≠ "" ∧ '&' ∉ e.serverId.toList ∧ '&' ∉ e.serverType.toList ∧
      '/' ∉ e.address.toList)
    ⟨fun ⟨h₁, h₂, h₃, h₄, h₅⟩ => ⟨h₁, h₂, h₃, h₄, h₅⟩, fun ⟨h₁, h₂, h₃, h₄, h₅⟩ =>
      ⟨h₁, h₂, h₃, h₄, h₅⟩⟩

/-- What the metadata of an entry says is read back, whatever the address is. -/
theorem ofMetadata?_metadata (h : e.IsSound) (address : String) :
    ofMetadata? address e.metadata = some ⟨e.serverId, e.serverType, address⟩ :=
  ofMetadata?_metadata_of_notMem h.serverId_ne h.serverType_ne h.amp_notMem_serverId
    h.amp_notMem_serverType address

/-! ## Keys -/

theorem toList_key (basePath : String) (e : ServiceEntry) : (e.key basePath).toList =
    ((keyBase basePath).toList ++ e.serverType.toList) ++ '/' :: e.address.toList := by
  simp [key]

theorem keyBase_prefix_key (basePath : String) (e : ServiceEntry) :
    (keyBase basePath).toList <+: (e.key basePath).toList := by
  rw [toList_key, List.append_assoc]
  exact List.prefix_append ..

theorem addressOfKey_key (h : e.IsSound) (basePath : String) :
    addressOfKey (e.key basePath) = e.address := by
  have hall : ∀ c ∈ e.address.toList.reverse, (decide (c ≠ '/')) = true := by
    intro c hc
    rw [decide_eq_true_eq]
    rintro rfl
    exact h.slash_notMem_address (List.mem_reverse.mp hc)
  rw [addressOfKey, toList_key, List.reverse_append, List.reverse_cons, List.append_assoc,
    List.takeWhile_append_of_pos hall]
  simp

/-- Entries of one key are of one type and have one address. -/
theorem key_inj (h : e.IsSound) (h' : e'.IsSound) {basePath : String}
    (hkey : e.key basePath = e'.key basePath) :
    e.serverType = e'.serverType ∧ e.address = e'.address := by
  have haddress : e.address = e'.address := by
    rw [← addressOfKey_key h basePath, hkey, addressOfKey_key h']
  refine ⟨?_, haddress⟩
  have hlist := congrArg String.toList hkey
  rw [toList_key, toList_key, haddress] at hlist
  exact String.toList_inj.mp (List.append_cancel_left (List.append_cancel_right hlist))

theorem eq_of_key_eq (h : e.IsSound) (h' : e'.IsSound) {basePath : String}
    (hkey : e.key basePath = e'.key basePath)
    (hid : e.serverType = e'.serverType → e.address = e'.address → e.serverId = e'.serverId) :
    e = e' := by
  obtain ⟨htype, haddress⟩ := key_inj h h' hkey
  have hserver := hid htype haddress
  cases e
  cases e'
  simp_all only

/-- The entry that stands under its key. -/
theorem ofMetadata?_key (h : e.IsSound) (basePath : String) :
    ofMetadata? (addressOfKey (e.key basePath)) e.metadata = some e := by
  rw [addressOfKey_key h, ofMetadata?_metadata h]

/-! ## The order of entries -/

/-- What entries are ordered by: the server, then the type, then the address. -/
def rank (e : ServiceEntry) : String ×ₗ String ×ₗ String :=
  toLex (e.serverId, toLex (e.serverType, e.address))

theorem rank_inj : e.rank = e'.rank ↔ e = e' := by
  cases e
  cases e'
  simp [rank]

theorem le_iff : le e e' = true ↔ e.rank ≤ e'.rank := by
  rw [rank, rank, Prod.Lex.toLex_le_toLex, Prod.Lex.toLex_le_toLex]
  unfold le
  split_ifs with hid htype
  · simp [hid, htype]
  · simp [hid, htype]
  · simp [hid]

theorem le_trans (a b c : ServiceEntry) (hab : le a b = true) (hbc : le b c = true) :
    le a c = true := by
  rw [le_iff] at *
  exact hab.trans hbc

theorem le_total (a b : ServiceEntry) : (le a b || le b a) = true := by
  rw [Bool.or_eq_true, le_iff, le_iff]
  exact LinearOrder.le_total ..

theorem le_antisymm {a b : ServiceEntry} (hab : le a b = true) (hba : le b a = true) : a = b := by
  rw [le_iff] at *
  exact rank_inj.mp (PartialOrder.le_antisymm _ _ hab hba)

/-- A sorted list is in the order of the ranks. -/
theorem pairwise_mergeSort_rank (es : List ServiceEntry) :
    (es.mergeSort le).Pairwise fun e e' => e.rank ≤ e'.rank :=
  (List.pairwise_mergeSort le_trans le_total es).imp le_iff.mp

/-- Which entries a list has, and how often, decides what it is when it is sorted. -/
theorem mergeSort_eq_of_perm {es es' : List ServiceEntry} (h : es.Perm es') :
    es.mergeSort le = es'.mergeSort le := by
  have hperm : (es.mergeSort le).Perm (es'.mergeSort le) :=
    (List.mergeSort_perm es le).trans (h.trans (List.mergeSort_perm es' le).symm)
  exact hperm.eq_of_pairwise (fun a b _ _ => le_antisymm)
    (List.pairwise_mergeSort le_trans le_total es) (List.pairwise_mergeSort le_trans le_total es')

end ServiceEntry

end ChatRelay
