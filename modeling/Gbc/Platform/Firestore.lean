import Mathlib.Data.String.Basic
import Std.Data.ExtTreeMap

/-!
# Documents and collections

A document maps field names to strings: every value the program writes is one. A
collection lists its documents in ascending document ID order, the order in which
`getDocuments` delivers them.
-/

namespace Gbc

/-- The fields of a document literal, in source order. -/
abbrev Fields := List (String × String)

/-- The value a literal gives a field: the last entry wins. -/
def Fields.value (key : String) : Fields → Option String
  | [] => none
  | field :: fields => (value key fields).or (if field.1 = key then some field.2 else none)

theorem Fields.value_append (key : String) (first second : Fields) :
    Fields.value key (first ++ second) =
      (Fields.value key second).or (Fields.value key first) := by
  induction first with
  | nil => simp [Fields.value]
  | cons field first inductionHypothesis =>
      simp [Fields.value, inductionHypothesis, Option.or_assoc]

/-- `document.data()`. -/
abbrev Doc := Std.ExtTreeMap String String compare

/-- Write fields over a document, keeping the fields not named. -/
def Doc.merge (data : Doc) (fields : Fields) : Doc :=
  fields.foldl (fun data field => data.insert field.1 field.2) data

/-- `data[key] as? String ?? ""`. -/
def Doc.text (data : Doc) (key : String) : String :=
  data[key]?.getD ""

/-- A merged document has the written value of a field, or else its old one. -/
theorem Doc.getElem?_merge (data : Doc) (fields : Fields) (key : String) :
    (data.merge fields)[key]? = (Fields.value key fields).or data[key]? := by
  induction fields generalizing data with
  | nil => simp [Doc.merge, Fields.value]
  | cons field fields inductionHypothesis =>
      have merged := inductionHypothesis (data.insert field.1 field.2)
      simp only [Doc.merge, Fields.value, List.foldl_cons] at *
      rw [merged, Std.ExtTreeMap.getElem?_insert, Option.or_assoc]
      by_cases same : field.1 = key <;> simp [same]

theorem Doc.text_of_getElem? {data : Doc} {key value : String} (found : data[key]? = some value) :
    data.text key = value := by
  simp [Doc.text, found]

/-- A nonempty text is the text of a field that is there. -/
theorem Doc.getElem?_of_text {data : Doc} {key value : String} (read : data.text key = value)
    (nonempty : value ≠ "") : data[key]? = some value := by
  cases found : data[key]? with
  | none => simp [Doc.text, found] at read; exact absurd read nonempty
  | some stored => simp [Doc.text, found] at read; simp [read]

/-- A collection, from document IDs to documents. -/
abbrev Collection := Std.ExtTreeMap String Doc compare

/-- What `getDocuments` delivers: document IDs with their data. -/
abbrev Snapshot := List (String × Doc)

/-- The last entry of an ordered list is the one that nothing comes after. -/
theorem getLast?_of_pairwise {Entry : Type} {before : Entry → Entry → Prop}
    {entries : List Entry} (ordered : entries.Pairwise before) {last : Entry}
    (member : last ∈ entries) (maximal : ∀ entry ∈ entries, ¬ before last entry) :
    entries.getLast? = some last := by
  induction entries with
  | nil => cases member
  | cons first rest inductionHypothesis =>
      obtain ⟨precedes, ordered⟩ := List.pairwise_cons.mp ordered
      cases rest with
      | nil => simp [List.mem_singleton.mp member]
      | cons second rest =>
          rcases List.mem_cons.mp member with rfl | later
          · exact absurd (precedes second List.mem_cons_self)
              (maximal second (List.mem_cons_of_mem _ List.mem_cons_self))
          · rw [List.getLast?_cons_cons]
            exact inductionHypothesis ordered later fun entry member =>
              maximal entry (List.mem_cons_of_mem _ member)

/-- A write to one document of a collection. -/
inductive Write where
  | add (document : String) (data : Fields)
  | set (document : String) (data : Fields) (merge : Bool)
  | delete (document : String)
  deriving DecidableEq

/-- The document a write is addressed to. -/
def Write.document : Write → String
  | .add document _ => document
  | .set document _ _ => document
  | .delete document => document

/-- The fields a write gives. -/
def Write.fields : Write → Fields
  | .add _ data => data
  | .set _ data _ => data
  | .delete _ => []

/-- The effect of a write. A merge creates an absent document; deleting one does
nothing. -/
def Write.apply (documents : Collection) : Write → Collection
  | .add document data => documents.insert document (Doc.merge ∅ data)
  | .set document data true => documents.insert document ((documents[document]?.getD ∅).merge data)
  | .set document data false => documents.insert document (Doc.merge ∅ data)
  | .delete document => documents.erase document

/-- A write leaves every other document alone. -/
theorem Write.getElem?_apply_of_ne (write : Write) (documents : Collection) {document : String}
    (different : write.document ≠ document) :
    (write.apply documents)[document]? = documents[document]? := by
  cases write with
  | add written data => simp_all [Write.apply, Write.document, Std.ExtTreeMap.getElem?_insert]
  | set written data merge =>
      cases merge <;>
        simp_all [Write.apply, Write.document, Std.ExtTreeMap.getElem?_insert]
  | delete written => simp_all [Write.apply, Write.document, Std.ExtTreeMap.getElem?_erase]

@[simp] theorem Write.getElem?_apply_add (documents : Collection) (document : String)
    (data : Fields) :
    ((Write.add document data).apply documents)[document]? = some (Doc.merge ∅ data) := by
  simp [Write.apply]

@[simp] theorem Write.getElem?_apply_merge (documents : Collection) (document : String)
    (data : Fields) :
    ((Write.set document data true).apply documents)[document]? =
      some ((documents[document]?.getD ∅).merge data) := by
  simp [Write.apply]

@[simp] theorem Write.getElem?_apply_set (documents : Collection) (document : String)
    (data : Fields) :
    ((Write.set document data false).apply documents)[document]? =
      some (Doc.merge ∅ data) := by
  simp [Write.apply]

@[simp] theorem Write.getElem?_apply_delete (documents : Collection) (document : String) :
    ((Write.delete document).apply documents)[document]? = none := by
  simp [Write.apply]

/-- What a write makes of the document it is addressed to. -/
def Write.effect (write : Write) (stored : Option Doc) : Option Doc :=
  match write with
  | .add _ data => some (Doc.merge ∅ data)
  | .set _ data true => some ((stored.getD ∅).merge data)
  | .set _ data false => some (Doc.merge ∅ data)
  | .delete _ => none

theorem Write.getElem?_apply_self (write : Write) (documents : Collection) :
    (write.apply documents)[write.document]? = write.effect documents[write.document]? := by
  cases write with
  | add name data => simp [document, effect]
  | set name data merge => cases merge <;> simp [document, effect]
  | delete name => simp [document, effect]

/-- A field that a write gives is in the document after it. -/
theorem Write.exists_getElem?_apply (write : Write) (documents : Collection) {key value : String}
    (given : Fields.value key write.fields = some value) :
    ∃ data, (write.apply documents)[write.document]? = some data ∧ data[key]? = some value := by
  cases write with
  | add name fields =>
      refine ⟨Doc.merge ∅ fields, by simp [Write.document], ?_⟩
      have named : Fields.value key fields = some value := given
      rw [Doc.getElem?_merge, named, Option.some_or]
  | set name fields merge =>
      have named : Fields.value key fields = some value := given
      cases merge with
      | false =>
          refine ⟨Doc.merge ∅ fields, by simp [Write.document], ?_⟩
          rw [Doc.getElem?_merge, named, Option.some_or]
      | true =>
          refine ⟨(documents[name]?.getD ∅).merge fields, by simp [Write.document], ?_⟩
          rw [Doc.getElem?_merge, named, Option.some_or]
  | delete name => cases given

end Gbc
