import DuplexRpc.Proofs.Json.RoundTrip
import Mathlib.Data.List.Forall2
import Mathlib.Data.List.Induction

/-!
Records: objects written field by field, absent fields left out. The order of the fields is theirs;
read back, every field is found under its key, whatever the order.
-/
namespace DuplexRpc.Json

variable {level : Nat} {s : List Char} {d : Document}

theorem flatten_intersperse_eq (field : String × List Char) (fields : List (String × List Char)) :
    (((field :: fields).map fun f => renderString f.1 ++ ':' :: f.2).intersperse [',']).flatten ++
      ['}'] = renderString field.1 ++ ':' :: field.2 ++ fieldsText fields := by
  induction fields generalizing field with
  | nil => simp [fieldsText]
  | cons next fields ih =>
    have hrest := ih next
    simp only [List.map_cons, List.intersperse_cons_cons, List.flatten_cons, List.append_assoc,
      List.cons_append, List.nil_append, fieldsText] at hrest ⊢
    rw [hrest]

theorem renderRecord_eq (members : List (String × Option (List Char))) :
    renderRecord members = objectText (members.filterMap fun m => m.2.map (m.1, ·)) := by
  have hpresent : (members.filterMap fun m => m.2.map (renderString m.1 ++ ':' :: ·)) =
      (members.filterMap fun m => m.2.map (m.1, ·)).map
        fun f => renderString f.1 ++ ':' :: f.2 := by
    rw [List.map_filterMap]
    congr 1
    funext m
    cases m.2 <;> rfl
  have hrecord : renderRecord members = '{' :: (((members.filterMap fun m =>
      m.2.map (renderString m.1 ++ ':' :: ·)).intersperse [',']).flatten ++ ['}']) := rfl
  rw [hrecord, hpresent]
  cases members.filterMap fun m => m.2.map (m.1, ·) with
  | nil => rfl
  | cons field fields =>
    rw [flatten_intersperse_eq]
    rfl

/-- The document of a record whose absent members are left out. -/
def recordDocument (entries : List (String × Option Document)) : Document :=
  .object (entries.filterMap fun e => e.2.map (some e.1, ·))

/-- The members of such a record, in the order of their keys. -/
def recordMembers (entries : List (String × Option Document)) : Members none :=
  .ofList (entries.filterMap fun e => e.2.map (e.1, ·.value))

/-- A member is read as its document is, or is absent like it. -/
def ReadsMember (level : Nat) (text : String × Option (List Char))
    (entry : String × Option Document) : Prop :=
  text.1 = entry.1 ∧ Option.Rel (Reads level) text.2 entry.2

theorem ReadsMember.some {key : String} (h : Reads level s d) :
    ReadsMember level (key, some s) (key, some d) :=
  ⟨rfl, .some h⟩

theorem ReadsMember.map {α : Type} {key : String} {render : α → List Char} {document : α → Document}
    {value : Option α} (h : ∀ v ∈ value, Reads level (render v) (document v)) :
    ReadsMember level (key, value.map render) (key, value.map document) := by
  refine ⟨rfl, ?_⟩
  cases value with
  | none => exact .none
  | some v => exact .some (h v rfl)

/-- A field whose value may be missing. -/
theorem ReadsMember.of_json {key : String} {value : Option Json}
    (hdepth : value.elim 0 depth ≤ level) (hdoubles : ∀ x ∈ value.elim [] doubles, ReadsBack x) :
    ReadsMember level (key, value.map render) (key, value.map document) := by
  refine .map fun j hj => ?_
  cases hj
  exact reads_render j hdepth hdoubles

theorem exists_fields {texts : List (String × Option (List Char))}
    {entries : List (String × Option Document)}
    (h : List.Forall₂ (ReadsMember level) texts entries) :
    ∃ fields : List (String × List Char × Document), (∀ f ∈ fields, Reads level f.2.1 f.2.2) ∧
      texts.filterMap (fun m => m.2.map (m.1, ·)) = fields.map (fun f => (f.1, f.2.1)) ∧
      entries.filterMap (fun e => e.2.map (Option.some e.1, ·)) =
        fields.map fun f => (Option.some f.1, f.2.2) := by
  induction h with
  | nil => exact ⟨[], List.forall_mem_nil _, rfl, rfl⟩
  | @cons text entry texts entries hmember _ ih =>
    obtain ⟨fields, hreads, htexts, hentries⟩ := ih
    obtain ⟨key, text⟩ := text
    obtain ⟨key', entry⟩ := entry
    obtain ⟨rfl, hrel⟩ : key = key' ∧ _ := hmember
    cases hrel with
    | none => exact ⟨fields, hreads, htexts, hentries⟩
    | @some s d hvalue =>
      refine ⟨(key, s, d) :: fields, List.forall_mem_cons.2 ⟨hvalue, hreads⟩, ?_, ?_⟩
      · simpa using htexts
      · simpa using hentries

theorem reads_record {texts : List (String × Option (List Char))}
    {entries : List (String × Option Document)}
    (h : List.Forall₂ (ReadsMember level) texts entries) :
    Reads (level + 1) (renderRecord texts) (recordDocument entries) := by
  obtain ⟨fields, hreads, htexts, hentries⟩ := exists_fields h
  rw [renderRecord_eq, htexts, recordDocument, hentries]
  exact reads_object hreads

theorem value_recordDocument (entries : List (String × Option Document)) :
    (recordDocument entries).value = .object (recordMembers entries) := by
  have hvalues : Document.memberValues (entries.filterMap fun e => e.2.map (some e.1, ·)) =
      entries.filterMap fun e => e.2.map (e.1, ·.value) := by
    induction entries with
    | nil => rfl
    | cons entry entries ih =>
      obtain ⟨key, value⟩ := entry
      cases value with
      | none => simpa using ih
      | some d => simp [Document.memberValues, ih]
  rw [recordDocument, Document.value, hvalues]
  rfl

/-- A record that is read wherever it stands is parsed to its members. -/
theorem parse?_record {entries : List (String × Option Document)}
    (h : Reads maxDepth s (recordDocument entries)) :
    parse? (String.ofList s) = some (.object (recordMembers entries)) :=
  h.parse?.trans (congrArg some (value_recordDocument entries))

theorem map_value_map_document (value : Option Json) :
    (value.map document).map Document.value = value := by
  cases value with
  | none => rfl
  | some j => exact congrArg some (value_document j)

theorem get?_recordMembers_append (entries : List (String × Option Document)) (k key : String)
    (value : Option Document) :
    (recordMembers (entries ++ [(k, value)])).get? key =
      (if k = key then value.map Document.value else none).or ((recordMembers entries).get? key) := by
  unfold recordMembers
  rw [List.filterMap_append]
  cases value with
  | none => simp
  | some d =>
    have happend := Members.get?_ofList_append
      (entries.filterMap fun e => e.2.map (e.1, ·.value)) k d.value key
    by_cases hkey : k = key <;> simpa [hkey] using happend

/-- A record with distinct keys holds what was written under each of them. -/
theorem get?_recordMembers (entries : List (String × Option Document)) (key : String)
    (hkeys : (entries.map Prod.fst).Nodup) :
    (recordMembers entries).get? key = (entries.lookup key).join.map Document.value := by
  induction entries using List.reverseRecOn with
  | nil => rfl
  | append_singleton entries entry ih =>
    obtain ⟨k, value⟩ := entry
    rw [List.map_append, List.nodup_append] at hkeys
    obtain ⟨hentries, -, hapart⟩ := hkeys
    rw [get?_recordMembers_append, ih hentries, List.lookup_append]
    by_cases hkey : k = key
    · subst hkey
      have hlookup : entries.lookup k = none := by
        rw [List.lookup_eq_none_iff]
        intro entry hentry
        have hne := hapart entry.1 (List.mem_map_of_mem hentry) k (by simp)
        simpa using Ne.symm hne
      simp [hlookup]
    · have hbeq : (key == k) = false := by simpa using Ne.symm hkey
      simp [hkey, List.lookup_cons, hbeq]

end DuplexRpc.Json
