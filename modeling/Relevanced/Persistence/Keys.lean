import Relevanced.Persistence.RockHandle

/-!
# Store keys

The key builders of `SyncPersistence` and the logical records they name. Every
key is a label, a colon and a remainder; the label says which family the record
belongs to and whose it is. Nothing is escaped, so an owner id may itself begin
with a label and a colon: `Unambiguous` says that it does not, and under it the
keys separate records and every scan sees one family of one owner.
-/

namespace Relevanced.Persistence

open Foundation

set_option autoImplicit false

def getCentroidsPrefix : Bytes := ascii "centroids"

def getDocumentsPrefix : Bytes := ascii "documents"

def getCentroidKey (id : Bytes) : Bytes := getCentroidsPrefix ++ ascii ":" ++ id

def getDocumentKey (id : Bytes) : Bytes := getDocumentsPrefix ++ ascii ":" ++ id

def getCentroidDocumentPrefix (id : Bytes) : Bytes := id ++ ascii "__documents"

def getDocumentCentroidsPrefix (docId : Bytes) : Bytes := docId ++ ascii "__centroids"

def getDocumentCentroidKey (docId centroidId : Bytes) : Bytes :=
  docId ++ ascii "__centroids:" ++ centroidId

def getCentroidDocumentKey (centroidId docId : Bytes) : Bytes :=
  centroidId ++ ascii "__documents:" ++ docId

def getCentroidMetadataKey (id metaName : Bytes) : Bytes :=
  id ++ ascii "__centroid_metadata:" ++ metaName

def getDocumentMetadataKey (id metaName : Bytes) : Bytes :=
  id ++ ascii "__document_metadata:" ++ metaName

/-- The label `deleteCentroid` scans for metadata. -/
def centroidMetadataPrefix (id : Bytes) : Bytes := id ++ ascii "__centroid_metadata"

/-- The label `deleteDocument` scans for metadata. -/
def documentMetadataPrefix (id : Bytes) : Bytes := id ++ ascii "__document_metadata"

/-- The six families of records, in the order of the key builders above. -/
inductive Family where
  | documents
  | centroids
  | members
  | backLinks
  | centroidMetadata
  | documentMetadata
  deriving DecidableEq

/-- The part of a label that the owner does not choose. -/
def Family.ending : Family → Bytes
  | documents => ascii "documents"
  | centroids => ascii "centroids"
  | members => ascii "__documents"
  | backLinks => ascii "__centroids"
  | centroidMetadata => ascii "__centroid_metadata"
  | documentMetadata => ascii "__document_metadata"

theorem Family.colon_not_in_ending (family : Family) : colon ∉ family.ending := by
  cases family <;> decide

/-- Two endings overlap only where a top-level label closes the ending of a link family. -/
theorem Family.eq_or_top_of_suffix (left right : Family) (shorter : left.ending <:+ right.ending) :
    left = right ∨ (left = documents ∧ right = members) ∨
      (left = centroids ∧ right = backLinks) := by
  revert shorter
  cases left <;> cases right <;> decide

/-- What an iteration over a label is after: one family and, for four of the six families,
one owner. -/
inductive Scan where
  | documents
  | centroids
  | members (centroidId : Bytes)
  | backLinks (docId : Bytes)
  | centroidMetadata (centroidId : Bytes)
  | documentMetadata (docId : Bytes)
  deriving DecidableEq

namespace Scan

def label : Scan → Bytes
  | documents => getDocumentsPrefix
  | centroids => getCentroidsPrefix
  | members centroidId => getCentroidDocumentPrefix centroidId
  | backLinks docId => getDocumentCentroidsPrefix docId
  | centroidMetadata centroidId => centroidMetadataPrefix centroidId
  | documentMetadata docId => documentMetadataPrefix docId

def family : Scan → Family
  | documents => .documents
  | centroids => .centroids
  | members _ => .members
  | backLinks _ => .backLinks
  | centroidMetadata _ => .centroidMetadata
  | documentMetadata _ => .documentMetadata

/-- The id in the label; the two top-level families have none. -/
def owner : Scan → Bytes
  | documents => []
  | centroids => []
  | members centroidId => centroidId
  | backLinks docId => docId
  | centroidMetadata centroidId => centroidId
  | documentMetadata docId => docId

theorem label_eq (scan : Scan) : scan.label = scan.owner ++ scan.family.ending := by
  cases scan <;> rfl

theorem colon_not_in_label (scan : Scan) (free : colon ∉ scan.owner) : colon ∉ scan.label := by
  rw [label_eq, List.mem_append, not_or]
  exact ⟨free, scan.family.colon_not_in_ending⟩

theorem eq_of_family_owner {left right : Scan} (families : left.family = right.family)
    (owners : left.owner = right.owner) : left = right := by
  cases left <;> cases right <;> simp_all [family, owner]

theorem owner_of_documents {scan : Scan} (top : scan.family = .documents) : scan.owner = [] := by
  cases scan <;> first | rfl | cases top

theorem owner_of_centroids {scan : Scan} (top : scan.family = .centroids) : scan.owner = [] := by
  cases scan <;> first | rfl | cases top

theorem eq_of_label_of_suffix {left right : Scan} (same : left.label = right.label)
    (shorter : left.family.ending <:+ right.family.ending) : left = right := by
  have lengths := congrArg List.length same
  rcases Family.eq_or_top_of_suffix _ _ shorter with families | ⟨top, link⟩ | ⟨top, link⟩
  · apply eq_of_family_owner families
    rw [label_eq, label_eq, families] at same
    exact List.append_cancel_right same
  · rw [label_eq, label_eq, top, link] at lengths
    rw [owner_of_documents top] at lengths
    simp [Family.ending, ascii] at lengths
  · rw [label_eq, label_eq, top, link] at lengths
    rw [owner_of_centroids top] at lengths
    simp [Family.ending, ascii] at lengths

theorem label_injective : Function.Injective label := by
  intro left right same
  have leftEnd : left.family.ending <:+ left.label :=
    label_eq left ▸ List.suffix_append left.owner _
  have rightEnd : right.family.ending <:+ left.label :=
    same ▸ label_eq right ▸ List.suffix_append right.owner _
  rcases List.suffix_or_suffix_of_suffix leftEnd rightEnd with shorter | shorter
  · exact eq_of_label_of_suffix same shorter
  · exact (eq_of_label_of_suffix same.symm shorter).symm

end Scan

theorem owned_key_eq_join (owner rest ending : Bytes) :
    owner ++ (ending ++ [colon]) ++ rest = join colon (owner ++ ending) rest := by
  simp [join]

/-- One record of the store as the callers of `SyncPersistence` think of it. -/
inductive LogicalRecord where
  | documentBody (docId : Bytes)
  | centroidBody (centroidId : Bytes)
  | member (centroidId docId : Bytes)
  | backLink (docId centroidId : Bytes)
  | centroidMetadata (centroidId metaName : Bytes)
  | documentMetadata (docId metaName : Bytes)
  deriving DecidableEq

namespace LogicalRecord

def storeKey : LogicalRecord → Bytes
  | documentBody docId => getDocumentKey docId
  | centroidBody centroidId => getCentroidKey centroidId
  | member centroidId docId => getCentroidDocumentKey centroidId docId
  | backLink docId centroidId => getDocumentCentroidKey docId centroidId
  | centroidMetadata centroidId metaName => getCentroidMetadataKey centroidId metaName
  | documentMetadata docId metaName => getDocumentMetadataKey docId metaName

/-- The scan that is to find the record. -/
def scan : LogicalRecord → Scan
  | documentBody _ => .documents
  | centroidBody _ => .centroids
  | member centroidId _ => .members centroidId
  | backLink docId _ => .backLinks docId
  | centroidMetadata centroidId _ => .centroidMetadata centroidId
  | documentMetadata docId _ => .documentMetadata docId

/-- What follows the colon of the label. -/
def rest : LogicalRecord → Bytes
  | documentBody docId => docId
  | centroidBody centroidId => centroidId
  | member _ docId => docId
  | backLink _ centroidId => centroidId
  | centroidMetadata _ metaName => metaName
  | documentMetadata _ metaName => metaName

def ofScan : Scan → Bytes → LogicalRecord
  | .documents, rest => documentBody rest
  | .centroids, rest => centroidBody rest
  | .members centroidId, rest => member centroidId rest
  | .backLinks docId, rest => backLink docId rest
  | .centroidMetadata centroidId, rest => centroidMetadata centroidId rest
  | .documentMetadata docId, rest => documentMetadata docId rest

@[simp] theorem of_scan_rest (record : LogicalRecord) :
    ofScan record.scan record.rest = record := by
  cases record <;> rfl

@[simp] theorem scan_of_scan (scan : Scan) (rest : Bytes) : (ofScan scan rest).scan = scan := by
  cases scan <;> rfl

@[simp] theorem rest_of_scan (scan : Scan) (rest : Bytes) : (ofScan scan rest).rest = rest := by
  cases scan <;> rfl

theorem store_key_eq_join (record : LogicalRecord) :
    record.storeKey = join colon record.scan.label record.rest := by
  cases record with
  | documentBody docId => rfl
  | centroidBody centroidId => rfl
  | member centroidId docId =>
      exact owned_key_eq_join centroidId docId (ascii "__documents")
  | backLink docId centroidId =>
      exact owned_key_eq_join docId centroidId (ascii "__centroids")
  | centroidMetadata centroidId metaName =>
      exact owned_key_eq_join centroidId metaName (ascii "__centroid_metadata")
  | documentMetadata docId metaName =>
      exact owned_key_eq_join docId metaName (ascii "__document_metadata")

end LogicalRecord

/-- An id no beginning of which is a label followed by a colon. -/
def Unambiguous (id : Bytes) : Prop := ∀ scan : Scan, ¬ scan.label ++ [colon] <+: id

theorem unambiguous_of_colon_free {id : Bytes} (free : colon ∉ id) : Unambiguous id := by
  intro scan begins
  exact free (begins.subset (by simp))

theorem unambiguous_nil : Unambiguous [] := unambiguous_of_colon_free (by simp)

/-- The owner the record's label is built with is unambiguous. -/
def LogicalRecord.Owned (record : LogicalRecord) : Prop := Unambiguous record.scan.owner

section Owned

open LogicalRecord

theorem owned_document (d : Bytes) : (documentBody d).Owned := unambiguous_nil

theorem owned_centroid (c : Bytes) : (centroidBody c).Owned := unambiguous_nil

theorem owned_member {c : Bytes} (free : colon ∉ c) (d : Bytes) : (member c d).Owned :=
  unambiguous_of_colon_free free

theorem owned_back_link {d : Bytes} (free : colon ∉ d) (c : Bytes) : (backLink d c).Owned :=
  unambiguous_of_colon_free free

end Owned

theorem label_colon_begins {scan other : Scan}
    (begins : scan.label ++ [colon] <+: other.label ++ [colon]) :
    scan = other ∨ scan.label ++ [colon] <+: other.owner := by
  rcases Nat.lt_or_ge scan.label.length other.label.length with shorter | longer
  · right
    have inLabel : scan.label ++ [colon] <+: other.label :=
      List.prefix_of_prefix_length_le begins (List.prefix_append _ _)
        (by simpa using Nat.succ_le_of_lt shorter)
    rw [Scan.label_eq other] at inLabel
    exact delimited_of_append other.family.colon_not_in_ending inLabel
  · left
    have whole := begins.eq_of_length_le (by simpa using longer)
    exact Scan.label_injective (List.append_cancel_right whole)

theorem scan_eq_of_begins {scan : Scan} {record : LogicalRecord}
    (scanned : Unambiguous scan.owner) (owned : record.Owned)
    (begins : scan.label ++ [colon] <+: record.storeKey) : record.scan = scan := by
  have built : record.scan.label ++ [colon] <+: record.storeKey := by
    rw [LogicalRecord.store_key_eq_join]
    exact ⟨record.rest, by simp [join]⟩
  rcases List.prefix_or_prefix_of_prefix begins built with inner | outer
  · rcases label_colon_begins inner with same | ambiguous
    · exact same.symm
    · exact absurd ambiguous (owned scan)
  · rcases label_colon_begins outer with same | ambiguous
    · exact same
    · exact absurd ambiguous (scanned record.scan)

theorem store_key_in_range_iff {scan : Scan} {record : LogicalRecord}
    (scanned : Unambiguous scan.owner) (owned : record.Owned) :
    scan.label ++ [colon] <+: record.storeKey ↔ record.scan = scan := by
  constructor
  · exact scan_eq_of_begins scanned owned
  · rintro rfl
    rw [LogicalRecord.store_key_eq_join]
    exact ⟨record.rest, by simp [join]⟩

theorem store_key_eq_iff {left right : LogicalRecord} (leftOwned : left.Owned)
    (rightOwned : right.Owned) :
    left.storeKey = right.storeKey ↔ left = right := by
  constructor
  · intro same
    have begins : left.scan.label ++ [colon] <+: right.storeKey :=
      same ▸ (store_key_in_range_iff leftOwned leftOwned).mpr rfl
    have scans : right.scan = left.scan := scan_eq_of_begins leftOwned rightOwned begins
    have rests : left.rest = right.rest := by
      rw [left.store_key_eq_join, right.store_key_eq_join, scans] at same
      simpa [join] using same
    rw [← left.of_scan_rest, ← right.of_scan_rest, scans, rests]
  · rintro rfl
    rfl

/-- The condition cannot be relaxed: every record of an ambiguous owner shares its key. -/
theorem ambiguous_owner_shares_key {record : LogicalRecord}
    (ambiguous : ¬ record.Owned) :
    ∃ other : LogicalRecord, other ≠ record ∧ other.storeKey = record.storeKey := by
  obtain ⟨scan, begins⟩ : ∃ scan : Scan, scan.label ++ [colon] <+: record.scan.owner := by
    simpa [LogicalRecord.Owned, Unambiguous] using ambiguous
  obtain ⟨tail, split⟩ := begins
  refine ⟨.ofScan scan (tail ++ record.scan.family.ending ++ colon :: record.rest), ?_, ?_⟩
  · intro same
    have labels : scan.label = record.scan.label := by
      rw [← same, LogicalRecord.scan_of_scan]
    have lengths := congrArg List.length labels
    rw [Scan.label_eq record.scan, ← split] at lengths
    simp only [List.length_append, List.length_cons] at lengths
    omega
  · rw [LogicalRecord.store_key_eq_join, LogicalRecord.store_key_eq_join,
      LogicalRecord.scan_of_scan, LogicalRecord.rest_of_scan, Scan.label_eq record.scan, ← split]
    simp [join]

section Holds

variable {store : Store} {record other : LogicalRecord}

/-- The store has the record's key. -/
def Holds (store : Store) (record : LogicalRecord) : Prop := record.storeKey ∈ store

instance (store : Store) (record : LogicalRecord) : Decidable (Holds store record) :=
  inferInstanceAs (Decidable (record.storeKey ∈ store))

theorem holds_insert_iff (owned : record.Owned) (otherOwned : other.Owned) (value : Bytes) :
    Holds (store.insert other.storeKey value) record ↔ record = other ∨ Holds store record := by
  rw [Holds, OrderedMap.mem_insert_iff, store_key_eq_iff owned otherOwned, Holds]

theorem holds_erase_iff (owned : record.Owned) (otherOwned : other.Owned) :
    Holds (store.erase other.storeKey) record ↔ record ≠ other ∧ Holds store record := by
  rw [Holds, OrderedMap.mem_erase_iff, ne_eq, store_key_eq_iff owned otherOwned, Holds]

theorem holds_erase_under_iff (scan : Scan) (owned : record.Owned)
    (scanned : Unambiguous scan.owner) :
    Holds (eraseUnder store scan.label) record ↔ record.scan ≠ scan ∧ Holds store record := by
  rw [Holds, mem_erase_under_iff, store_key_in_range_iff scanned owned, Holds]

end Holds

end Relevanced.Persistence
