import FederatedRounds.Proofs.Wire.RoundTrip

/-! What a message depends on. A structure is read from its fields alone, each of which stands once
if at all: the layout of the text, the order of the members and what stands under other names make
no difference, and the list of the fields says the same as the object. -/
namespace FederatedRounds

namespace Json

section Entries
variable {members others extra : List Member} {name : String}

theorem entry_perm (permuted : members.Perm others) (name : String) :
    entry name members = entry name others := by
  have kept := permuted.filter (fun member : Member => member.1 = some name)
  unfold entry
  generalize members.filter _ = found at kept
  generalize others.filter _ = same at kept
  match found with
  | [] => rw [List.nil_perm.mp kept]
  | [member] => rw [List.singleton_perm.mp kept]
  | first :: second :: rest =>
    match same with
    | [] | [_] => simpa using kept.length_eq
    | _ :: _ :: _ => rfl

theorem filter_absent (absent : ∀ member ∈ members, member.1 ≠ some name) :
    members.filter (fun member : Member => member.1 = some name) = [] := by
  simpa using absent

theorem entry_append (absent : ∀ member ∈ extra, member.1 ≠ some name) :
    entry name (members ++ extra) = entry name members := by
  unfold entry
  rw [List.filter_append, filter_absent absent, List.append_nil]

theorem entry_absent (absent : ∀ member ∈ members, member.1 ≠ some name) :
    entry name members = .absent := by
  unfold entry
  rw [filter_absent absent]

theorem entry_cons (absent : ∀ member ∈ members, member.1 ≠ some name) (value : Json) :
    entry name ((some name, value) :: members) = .once value := by
  unfold entry
  rw [List.filter_cons, if_pos (by simp), filter_absent absent]

theorem entry_cons_of_ne {other : String} (apart : other ≠ name) (value : Json) :
    entry name ((some other, value) :: members) = entry name members := by
  unfold entry
  rw [List.filter_cons, if_neg (by simpa using apart)]

theorem entry_repeated {value : Json} (present : (some name, value) ∈ members) (again : Json) :
    entry name ((some name, again) :: members) = .repeated := by
  have found : (some name, value) ∈ members.filter (fun member => member.1 = some name) := by
    simpa using present
  obtain ⟨first, rest, kept⟩ := List.exists_cons_of_ne_nil (List.ne_nil_of_mem found)
  unfold entry
  rw [List.filter_cons, if_pos (by simp), kept]

theorem named_perm (permuted : members.Perm others) : named members = named others :=
  permuted.all_eq

theorem named_append (members extra : List Member) :
    named (members ++ extra) = (named members && named extra) := List.all_append

end Entries

/-- A message that is built from the fields of a structure and nothing else. Some are required; of
the list of them, those after the first `least` may be left out. -/
structure ReadsFields {τ : Type} (names required : List String) (least : Nat)
    (read? : Json → Option τ) (build : (String → Option Json) → Option τ) : Prop where
  distinct : names.Nodup
  reads : ∀ value, read? value = (value.fields? names least).bind build
  congr : ∀ field other, (∀ name ∈ names, field name = other name) → build field = build other
  missing : ∀ field, ∀ name ∈ required, field name = none → build field = none

section Objects
variable {τ : Type} {names required : List String} {least : Nat} {read? : Json → Option τ}
  {build : (String → Option Json) → Option τ} {members others : List Member} {name : String}

def Entry.value? : Entry → Option Json
  | once value => some value
  | _ => none

theorem fields?_object (members : List Member) : (object members).fields? names least =
    if named members && names.all (standsOnce · members) then
      some fun name => (entry name members).value?
    else none := rfl

/-- Objects that say the same under the names of the fields are read alike. -/
theorem ReadsFields.object_congr (reads : ReadsFields names required least read? build)
    (texts : named others = named members)
    (same : ∀ name ∈ names, entry name others = entry name members) :
    read? (.object others) = read? (.object members) := by
  have once : names.all (standsOnce · others) = names.all (standsOnce · members) := by
    rw [Bool.eq_iff_iff, List.all_eq_true, List.all_eq_true]
    simp +contextual only [standsOnce, same]
  rw [reads.reads, reads.reads, fields?_object, fields?_object, texts, once]
  split
  · apply reads.congr
    intro name known
    rw [same name known]
  · rfl

theorem ReadsFields.object_perm (reads : ReadsFields names required least read? build)
    (permuted : others.Perm members) : read? (.object others) = read? (.object members) :=
  reads.object_congr (named_perm permuted) fun name _ => entry_perm permuted name

theorem ReadsFields.object_append (reads : ReadsFields names required least read? build)
    {extra : List Member}
    (unknown : ∀ member ∈ extra, ∃ name, member.1 = some name ∧ name ∉ names) :
    read? (.object (members ++ extra)) = read? (.object members) := by
  apply reads.object_congr
  · have texts : named extra = true := by
      apply List.all_eq_true.mpr
      intro member inside
      obtain ⟨name, text, _⟩ := unknown member inside
      rw [text, Option.isSome_some]
    rw [named_append, texts, Bool.and_true]
  · intro name known
    apply entry_append
    intro member inside same
    obtain ⟨other, text, apart⟩ := unknown member inside
    rw [text] at same
    cases same
    exact apart known

theorem ReadsFields.object_nameless (reads : ReadsFields names required least read? build)
    (nameless : ∃ member ∈ members, member.1 = none) : read? (.object members) = none := by
  obtain ⟨member, inside, none⟩ := nameless
  rw [reads.reads, fields?_object, if_neg, Option.bind_none]
  intro accepted
  have text := List.all_eq_true.mp (Bool.and_eq_true_iff.mp accepted).1 member inside
  rw [none] at text
  cases text

theorem ReadsFields.object_repeated (reads : ReadsFields names required least read? build)
    (known : name ∈ names) (twice : entry name members = .repeated) :
    read? (.object members) = none := by
  rw [reads.reads, fields?_object, if_neg, Option.bind_none]
  intro accepted
  have once := List.all_eq_true.mp (Bool.and_eq_true_iff.mp accepted).2 name known
  rw [standsOnce, twice] at once
  cases once

theorem ReadsFields.object_missing (reads : ReadsFields names required least read? build)
    (needed : name ∈ required) (absent : entry name members = .absent) :
    read? (.object members) = none := by
  rw [reads.reads, fields?_object]
  split
  · apply reads.missing _ name needed
    rw [absent]
    rfl
  · rfl

/-- A field that has a value by default may be left out. -/
theorem object_default {default : Json}
    (reads : ∀ value, read? value = (value.fields? names least).bind build)
    (stands : ∀ field other, field name = none → other name = some default →
      (∀ known, known ≠ name → field known = other known) → build field = build other)
    (absent : ∀ member ∈ members, member.1 ≠ some name) :
    read? (.object ((some name, default) :: members)) = read? (.object members) := by
  have once : names.all (standsOnce · ((some name, default) :: members)) =
      names.all (standsOnce · members) := by
    congr 1
    funext known
    by_cases same : name = known
    · subst same
      rw [standsOnce, standsOnce, entry_cons absent, entry_absent absent]
    · rw [standsOnce, standsOnce, entry_cons_of_ne same]
  have texts : named ((some name, default) :: members) = named members := rfl
  rw [reads, reads, fields?_object, fields?_object, once, texts]
  split
  · symm
    apply stands
    · rw [entry_absent absent]
      rfl
    · rw [entry_cons absent]
      rfl
    · intro known other
      rw [entry_cons_of_ne (Ne.symm other)]
  · rfl

theorem get?_eq_lookup (members : List (String × Json)) (name : String) :
    Table.get? name members = members.lookup name := by
  induction members with
  | nil => rfl
  | cons member rest ih =>
    obtain ⟨key, value⟩ := member
    by_cases same : name = key
    · simp [Table.get?, same]
    · have apart : (name == key) = false := by simpa using same
      rw [Table.get?, if_neg (Ne.symm same), List.lookup_cons, apart, ih]

theorem zip_names_sublist (names : List String) (values : List Json) :
    ((names.zip values).map (·.1)).Sublist names := by
  induction names generalizing values with
  | nil => simp
  | cons name names ih =>
    cases values with
    | nil => simp
    | cons value values => exact (ih values).cons_cons name

/-- The list of the fields in their order is read like the object of them. -/
theorem ReadsFields.array_zip (reads : ReadsFields names required least read? build)
    {values : List Json} (enough : least ≤ values.length) (fits : values.length ≤ names.length) :
    read? (.array values) = read? (record (names.zip values)) := by
  have distinct := reads.distinct.sublist (zip_names_sublist names values)
  have list : (array values).fields? names least =
      some fun name => (names.zip values).lookup name :=
    if_pos ⟨enough, fits⟩
  rw [reads.reads, reads.reads, list, fields?_record distinct]
  apply reads.congr
  intro name _
  exact (get?_eq_lookup _ name).symm

end Objects

/-- What the text of a message comes down to, whether it is accepted or not. -/
structure DependsOnFields {τ : Type} (names required : List String) (least : Nat)
    (read? : Json → Option τ) : Prop where
  layout : ∀ {value : Json} {text other : String}, Written value text → Written value other →
    decode? read? other = decode? read? text
  -- A blank is added between two tokens, where it does not part a number.
  blank : ∀ {first second : List Token} {before after : List Char} {c : Char},
    isBlank c = true → Laid first before → Laid second after →
      Laid (first ++ second) (before ++ after) →
        decode? read? (.ofList (before ++ c :: after)) = decode? read? (.ofList (before ++ after))
  members : ∀ {members others extra : List Member} {text other : String},
    others.Perm (members ++ extra) →
      (∀ member ∈ extra, ∃ name, member.1 = some name ∧ name ∉ names) →
        Written (.object members) text → Written (.object others) other →
          decode? read? other = decode? read? text
  -- The text of a name is asked for before it is known whether a field has that name.
  nameless : ∀ {members : List Member} {text : String}, (∃ member ∈ members, member.1 = none) →
    Written (.object members) text → decode? read? text = none
  repeated : ∀ {members others : List Member} {name : String} {value again : Json} {text : String},
    name ∈ names → (some name, value) ∈ members → others.Perm ((some name, again) :: members) →
      Written (.object others) text → decode? read? text = none
  missing : ∀ {members : List Member} {name : String} {text : String}, name ∈ required →
    (∀ member ∈ members, member.1 ≠ some name) → Written (.object members) text →
      decode? read? text = none
  list : ∀ {values : List Json} {text other : String}, least ≤ values.length →
    values.length ≤ names.length → Written (record (names.zip values)) text →
      Written (.array values) other → decode? read? other = decode? read? text

section Texts
variable {τ : Type} {read? : Json → Option τ}

theorem decode?_written {value : Json} {text : String} (written : Written value text) :
    decode? read? text = read? value := by
  rw [decode?, parse?_eq_some_iff.mpr written, Option.bind_some]

theorem decode?_laid {tokens : List Token} {text : List Char} (laid : Laid tokens text) :
    decode? read? (.ofList text) = (ofTokens? tokens).bind read? := by
  rw [decode?, parse?, String.toList_ofList, scan_eq_some_iff.mpr laid, Option.bind_some]

theorem ReadsFields.dependsOnFields {names required : List String} {least : Nat}
    {build : (String → Option Json) → Option τ}
    (reads : ReadsFields names required least read? build) :
    DependsOnFields names required least read? where
  layout written laid := by rw [decode?_written written, decode?_written laid]
  blank mark front back whole := by
    rw [decode?_laid (front.insert_blank back mark), decode?_laid whole]
  members permuted unknown written laid := by
    rw [decode?_written written, decode?_written laid, reads.object_perm permuted,
      reads.object_append unknown]
  nameless nameless written := by
    rw [decode?_written written]
    exact reads.object_nameless nameless
  repeated known present permuted written := by
    rw [decode?_written written, reads.object_perm permuted]
    exact reads.object_repeated known (entry_repeated present _)
  missing needed absent written := by
    rw [decode?_written written]
    exact reads.object_missing needed (entry_absent absent)
  list enough fits written laid := by
    rw [decode?_written written, decode?_written laid]
    exact reads.array_zip enough fits

end Texts

end Json

theorem Update.readsFields : ∃ build, Json.ReadsFields ["weights", "aggregation_weight", "metrics"]
    ["weights", "aggregation_weight"] 2 Update.ofJson? build := by
  refine ⟨_, by decide, fun _ => rfl, ?_, ?_⟩
  · intro field other same
    simp [same]
  · intro field name known absent
    simp only [List.mem_cons, List.not_mem_nil, or_false] at known
    rcases known with rfl | rfl <;> simp [absent]

/-- An update without metrics is one with none. -/
theorem Update.without_metrics {members : List Json.Member}
    (absent : ∀ member ∈ members, member.1 ≠ some "metrics") :
    ofJson? (.object ((some "metrics", .object []) :: members)) = ofJson? (.object members) := by
  have none : Metrics.ofJson? (.object []) = some [] := rfl
  refine Json.object_default (fun _ => rfl) ?_ absent
  intro field other left stands same
  simp [same, left, stands, none]

theorem TrainingTask.readsFields : ∃ build, Json.ReadsFields ["weights", "epochs", "epoch_base"]
    ["weights", "epochs", "epoch_base"] 3 TrainingTask.ofJson? build := by
  refine ⟨_, by decide, fun _ => rfl, ?_, ?_⟩
  · intro field other same
    simp [same]
  · intro field name known absent
    simp only [List.mem_cons, List.not_mem_nil, or_false] at known
    rcases known with rfl | rfl | rfl <;> simp [absent]

theorem Heartbeat.readsFields : ∃ build,
    Json.ReadsFields ["state", "round"] ["state", "round"] 2 Heartbeat.ofJson? build := by
  refine ⟨_, by decide, fun _ => rfl, ?_, ?_⟩
  · intro field other same
    simp [same]
  · intro field name known absent
    simp only [List.mem_cons, List.not_mem_nil, or_false] at known
    rcases known with rfl | rfl <;> simp [absent]

theorem Admission.readsFields : ∃ build,
    Json.ReadsFields ["reply", "id"] ["reply"] 2 Admission.ofJson? build := by
  refine ⟨_, by decide, fun _ => rfl, ?_, ?_⟩
  · intro field other same
    simp [same]
  · intro field name known absent
    cases List.mem_singleton.mp known
    simp [absent]

theorem Admission.without_id {members : List Json.Member}
    (absent : ∀ member ∈ members, member.1 ≠ some "id") :
    ofJson? (.object ((some "id", .null) :: members)) = ofJson? (.object members) := by
  refine Json.object_default (fun _ => rfl) ?_ absent
  intro field other left stands same
  simp [same, left, stands]

/-- What a request or reply is decoded to depends on its fields alone. Metrics are none by default,
and there is no id where it is left out. -/
theorem decoding_depends_on_fields :
    Json.DependsOnFields ["weights", "aggregation_weight", "metrics"]
        ["weights", "aggregation_weight"] 2 Update.ofJson? ∧
      Json.DependsOnFields ["weights", "epochs", "epoch_base"] ["weights", "epochs", "epoch_base"] 3
        TrainingTask.ofJson? ∧
      Json.DependsOnFields ["state", "round"] ["state", "round"] 2 Heartbeat.ofJson? ∧
      Json.DependsOnFields ["reply", "id"] ["reply"] 2 Admission.ofJson? ∧
      (∀ {members others : List Json.Member} {text other : String},
        (∀ member ∈ members, member.1 ≠ some "metrics") →
          others.Perm ((some "metrics", .object []) :: members) →
            Json.Written (.object members) text → Json.Written (.object others) other →
              Json.decode? Update.ofJson? other = Json.decode? Update.ofJson? text) ∧
      ∀ {members others : List Json.Member} {text other : String},
        (∀ member ∈ members, member.1 ≠ some "id") →
          others.Perm ((some "id", .null) :: members) →
            Json.Written (.object members) text → Json.Written (.object others) other →
              Json.decode? Admission.ofJson? other = Json.decode? Admission.ofJson? text := by
  obtain ⟨_, update⟩ := Update.readsFields
  obtain ⟨_, task⟩ := TrainingTask.readsFields
  obtain ⟨_, heartbeat⟩ := Heartbeat.readsFields
  obtain ⟨_, admission⟩ := Admission.readsFields
  refine ⟨update.dependsOnFields, task.dependsOnFields, heartbeat.dependsOnFields,
    admission.dependsOnFields, ?_, ?_⟩
  · intro members others text other absent permuted written laid
    rw [Json.decode?_written written, Json.decode?_written laid, update.object_perm permuted]
    exact Update.without_metrics absent
  · intro members others text other absent permuted written laid
    rw [Json.decode?_written written, Json.decode?_written laid, admission.object_perm permuted]
    exact Admission.without_id absent

namespace Trial

def bare : List Json.Member := [(some "weights", .array []), (some "aggregation_weight", .nat 1)]

def bareText : String := "\x7b\"weights\":[],\"aggregation_weight\":1\x7d"

/-- A member that holds the name of a field further down, and a string without a text. -/
def nested : Json.Member :=
  (some "x", .array
    [.object [(some "weights", .number ⟨true, 0, [Fin.last 9], some 7⟩)], .string none])

def nestedText : String :=
  "\x7b \"x\": [\x7b\"weights\": -0.9E+07\x7d, \"\\udc00\"],\n" ++
    "\t\"aggregation_weight\": 1, \"\\u0077eights\": []\x7d "

end Trial

theorem nested_member_passed_over :
    Json.Written (.object Trial.bare) Trial.bareText ∧
      Json.Written (.object (Trial.nested :: Trial.bare.reverse)) Trial.nestedText ∧
      Json.Written (.array [.array [], .nat 1]) "[[], 1]" ∧
      Json.decode? Update.ofJson? Trial.nestedText = some ⟨[], 1, []⟩ ∧
      Json.decode? Update.ofJson? "[[], 1]" = some ⟨[], 1, []⟩ := by
  have bare : Json.Written (.object Trial.bare) Trial.bareText :=
    Json.scan_eq_some_iff.mp (by decide +kernel)
  have nested : Json.Written (.object (Trial.nested :: Trial.bare.reverse)) Trial.nestedText :=
    Json.scan_eq_some_iff.mp (by decide +kernel)
  have list : Json.Written (.array [.array [], .nat 1]) "[[], 1]" :=
    Json.scan_eq_some_iff.mp (by decide +kernel)
  have read : Json.decode? Update.ofJson? Trial.bareText = some ⟨[], 1, []⟩ := by decide +kernel
  have update := decoding_depends_on_fields.1
  refine ⟨bare, nested, list, ?_, ?_⟩
  · rw [← read]
    apply update.members _ _ bare nested
    · exact [Trial.nested]
    · exact ((List.reverse_perm _).cons _).trans (List.perm_append_singleton _ _).symm
    · intro member inside
      cases List.mem_singleton.mp inside
      exact ⟨"x", rfl, by decide⟩
  · rw [← read]
    refine update.list ?_ ?_ ?_ list
    · decide
    · decide
    · exact bare

/-- A name that is no text is not passed over, although no field has it. -/
theorem nameless_member_refused :
    Json.Written (.object Trial.bare) Trial.bareText ∧
      Json.Written (.object (Trial.bare ++ [(none, .nat 0)]))
        "\x7b\"weights\":[],\"aggregation_weight\":1,\"\\ud800\":0\x7d" ∧
      Json.decode? Update.ofJson? Trial.bareText = some ⟨[], 1, []⟩ ∧
      Json.decode? Update.ofJson?
        "\x7b\"weights\":[],\"aggregation_weight\":1,\"\\ud800\":0\x7d" = none :=
  ⟨Json.scan_eq_some_iff.mp (by decide +kernel), Json.scan_eq_some_iff.mp (by decide +kernel),
    by decide +kernel, by decide +kernel⟩

end FederatedRounds
