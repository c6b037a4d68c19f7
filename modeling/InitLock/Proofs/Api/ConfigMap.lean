import InitLock.Api.Answer
import InitLock.Api.ConfigMap
import InitLock.Proofs.Json.Object

/-!
# ConfigMaps read back

A ConfigMap in JSON is read back as it was (`ConfigMap.readBody_toJson`), with
all labels, owners and data, whatever characters are in them. The record kept in
the ConfigMap of a record is that record (`ConfigMap.toRecord_ofRecord`).
-/

namespace InitLock

/-! ## Tables -/

namespace Table

variable {κ ν : Type} [Ord κ]

theorem put_of_lt [Std.OrientedOrd κ] {k : κ} {v : ν} {es : List (κ × ν)}
    (h : ∀ e ∈ es, compare e.1 k = .lt) : put k v es = es ++ [(k, v)] := by
  induction es with
  | nil => rfl
  | cons e es ih =>
    obtain ⟨k', v'⟩ := e
    rw [List.forall_mem_cons] at h
    have hgt : compare k k' = .gt := Std.OrientedCmp.gt_of_lt h.1
    simp only [put, hgt, ih h.2, List.cons_append]

theorem entries_foldl_insert [Std.TransOrd κ] (es : List (κ × ν)) (t : Table κ ν)
    (h : (t.entries ++ es).Pairwise fun a b => compare a.1 b.1 = .lt) :
    (es.foldl (fun t e => t.insert e.1 e.2) t).entries = t.entries ++ es := by
  induction es generalizing t with
  | nil => exact (List.append_nil _).symm
  | cons e es ih =>
    have hput : (t.insert e.1 e.2).entries = t.entries ++ [e] :=
      put_of_lt fun e' he' => (List.pairwise_append.1 h).2.2 e' he' e List.mem_cons_self
    rw [List.append_cons] at h
    rw [List.foldl_cons, ih _ (by rwa [hput]), hput, List.append_assoc]
    rfl

theorem eq_of_entries : ∀ {t t' : Table κ ν}, t.entries = t'.entries → t = t'
  | ⟨_, _⟩, ⟨_, _⟩, rfl => rfl

/-- A table is the table of its entries. -/
theorem ofList_entries [Std.TransOrd κ] (t : Table κ ν) : ofList t.entries = t :=
  eq_of_entries (entries_foldl_insert t.entries empty t.sorted)

end Table

namespace Api

open Json Json.Reader

variable {depth : Nat}

namespace Metadata

/-! ## Owners -/

/-- A dictionary of texts is read back as the table it was. -/
theorem takes_texts {σ : Type} (t : Table String String) (g : Option (Table String String) → σ)
    (hdepth : 0 < depth) :
    ((nullable (dict text)).map fun es => g (es.map Table.ofList)).Takes (depth + 1)
      ((texts t).write none) (g (some t)) := by
  have hentries : (dict text).Takes (depth + 1) ((texts t).write none) t.entries :=
    takes_dict (f := .text) (fun _ _ => takes_text _ _) hdepth
  have h := (hentries.nullable (solid_object _)).map fun es => g (es.map Table.ofList)
  rwa [Option.map_some, Table.ofList_entries] at h

section
variable {σ α : Type} {member : String → σ → Member σ} {s s₁ : σ}

/-- An entry that is there or not takes what has been read so far to the same end. -/
theorem builds_optional {name : String} {f : α → Value} {o : Option α}
    (hnone : o = none → s₁ = s)
    (hsome : ∀ a, o = some a → ∃ r, member name s = .take r ∧ r.Takes depth ((f a).write none) s₁) :
    Builds member depth (optional name f o) s s₁ := by
  cases o with
  | none =>
    rw [hnone rfl]
    exact .nil s
  | some a =>
    obtain ⟨r, hm, hr⟩ := hsome a rfl
    exact .cons hm hr (.nil s₁)

theorem nullable_text (s : String) (depth : Nat) :
    (nullable text).Takes depth ((Value.text s).write none) (some s) :=
  (takes_text s depth).nullable (solid_writeText s)

end

theorem compare_ownerKeys :
    compare "kind" "apiVersion" = .gt ∧ compare "name" "apiVersion" = .gt ∧
    compare "uid" "apiVersion" = .gt ∧ compare "name" "kind" = .gt ∧ compare "uid" "kind" = .gt ∧
    compare "uid" "name" = .gt ∧ compare "controller" "apiVersion" = .gt ∧
    compare "controller" "kind" = .lt ∧ compare "blockOwnerDeletion" "apiVersion" = .gt ∧
    compare "blockOwnerDeletion" "controller" = .lt ∧
    compare "blockOwnerDeletion" "kind" = .lt := by
  decide

theorem ownerJson_eq (o : Owner) :
    ownerJson o = .object
      (("apiVersion", .text o.apiVersion) ::
        (optional "blockOwnerDeletion" .bool o.blockDeletion ++
          optional "controller" .bool o.controller ++
          [("kind", .text o.kind), ("name", .text o.name), ("uid", .text o.uid)])) := by
  obtain ⟨apiVersion, kind, name, uid, controller, blockDeletion⟩ := o
  cases controller <;> cases blockDeletion <;>
    simp only [ownerJson, Value.record, optional, Members.ofList, List.foldl, Members.set,
      List.append_nil, List.nil_append, List.cons_append, compare_ownerKeys]

/-- An owner reference is read back. -/
theorem takes_owner (o : Owner) (hdepth : 0 < depth) :
    owner.Takes (depth + 1) ((ownerJson o).write none) o := by
  rw [ownerJson_eq]
  refine takes_object (.cons rfl ((nullable_text _ _).map _) ?_) hdepth
  have hblock : Builds ownerMember depth (optional "blockOwnerDeletion" .bool o.blockDeletion)
      ⟨o.apiVersion, "", "", "", none, none⟩ ⟨o.apiVersion, "", "", "", none, o.blockDeletion⟩ := by
    refine builds_optional (fun h => by rw [h]) fun b h => ⟨_, rfl, ?_⟩
    rw [h]
    exact ((takes_boolean b depth).nullable (solid_bool b)).map _
  have hcontroller : Builds ownerMember depth (optional "controller" .bool o.controller)
      ⟨o.apiVersion, "", "", "", none, o.blockDeletion⟩
      ⟨o.apiVersion, "", "", "", o.controller, o.blockDeletion⟩ := by
    refine builds_optional (fun h => by rw [h]) fun b h => ⟨_, rfl, ?_⟩
    rw [h]
    exact ((takes_boolean b depth).nullable (solid_bool b)).map _
  refine .append (.append hblock hcontroller) ?_
  exact .cons rfl ((nullable_text _ _).map _) (.cons rfl ((nullable_text _ _).map _)
    (.cons rfl ((nullable_text _ _).map _) (.nil _)))

/-! ## Metadata -/

theorem compare_keys :
    compare "namespace" "name" = .gt ∧ compare "uid" "name" = .gt ∧ compare "labels" "name" = .lt ∧
    compare "ownerReferences" "name" = .gt ∧ compare "uid" "namespace" = .gt ∧
    compare "labels" "namespace" = .lt ∧ compare "ownerReferences" "namespace" = .gt ∧
    compare "labels" "uid" = .lt ∧ compare "ownerReferences" "uid" = .lt ∧
    compare "ownerReferences" "labels" = .gt := by
  decide

/-- The members of metadata in the order of their keys. -/
theorem toJson_eq (m : Metadata) :
    m.toJson = .object
      (optional "labels" texts m.labels ++ (optional "name" .text m.name ++
        (optional "namespace" .text m.ns ++
          (optional "ownerReferences" (fun os => .list (os.map ownerJson)) m.owners ++
            optional "uid" .text m.uid)))) := by
  obtain ⟨name, ns, uid, labels, owners⟩ := m
  cases name <;> cases ns <;> cases uid <;> cases labels <;> cases owners <;>
    simp only [toJson, Value.record, optional, Members.ofList, List.foldl, Members.set,
      List.append_nil, List.nil_append, List.cons_append, compare_keys]

theorem takesEach_owners (os : List Owner) (hdepth : 0 < depth) :
    TakesEach owner (depth + 1) (os.map ownerJson) os := by
  induction os with
  | nil => exact .nil
  | cons o os ih => exact .cons ⟨takes_owner o hdepth, ownerJson_eq o ▸ solid_object _⟩ ih

/-- Metadata is read back. -/
theorem takes_toJson (m : Metadata) (hdepth : 2 < depth) :
    reader.Takes (depth + 1) (m.toJson.write none) m := by
  obtain ⟨depth, rfl⟩ : ∃ d, depth = d + 2 := ⟨depth - 2, by omega⟩
  have hlabels : Builds member (depth + 2) (optional "labels" texts m.labels) empty
      ⟨none, none, none, m.labels, none⟩ := by
    refine builds_optional (fun h => by rw [h]; rfl) fun t h => ⟨_, rfl, ?_⟩
    rw [h]
    exact takes_texts t (fun ls => (⟨none, none, none, ls, none⟩ : Metadata)) (Nat.succ_pos depth)
  have hname : Builds member (depth + 2) (optional "name" .text m.name)
      ⟨none, none, none, m.labels, none⟩ ⟨m.name, none, none, m.labels, none⟩ := by
    refine builds_optional (fun h => by rw [h]) fun s h => ⟨_, rfl, ?_⟩
    rw [h]
    exact (nullable_text s _).map _
  have hns : Builds member (depth + 2) (optional "namespace" .text m.ns)
      ⟨m.name, none, none, m.labels, none⟩ ⟨m.name, m.ns, none, m.labels, none⟩ := by
    refine builds_optional (fun h => by rw [h]) fun s h => ⟨_, rfl, ?_⟩
    rw [h]
    exact (nullable_text s _).map _
  have howners : Builds member (depth + 2)
      (optional "ownerReferences" (fun os => .list (os.map ownerJson)) m.owners)
      ⟨m.name, m.ns, none, m.labels, none⟩ ⟨m.name, m.ns, none, m.labels, m.owners⟩ := by
    refine builds_optional (fun h => by rw [h]) fun os h => ⟨_, rfl, ?_⟩
    rw [h]
    exact ((takes_list (takesEach_owners os (by omega)) (by omega)).nullable (solid_list _)).map _
  have huid : Builds member (depth + 2) (optional "uid" .text m.uid)
      ⟨m.name, m.ns, none, m.labels, m.owners⟩ m := by
    obtain ⟨name, ns, uid, labels, owners⟩ := m
    refine builds_optional (fun h => h ▸ rfl) fun s h => ⟨_, rfl, ?_⟩
    obtain rfl : uid = some s := h
    exact (nullable_text s _).map _
  rw [toJson_eq]
  exact takes_object (hlabels.append (hname.append (hns.append (howners.append huid)))) (by omega)

end Metadata

/-! ## ConfigMaps -/

namespace ConfigMap

theorem compare_keys :
    compare "kind" "apiVersion" = .gt ∧ compare "metadata" "apiVersion" = .gt ∧
    compare "metadata" "kind" = .gt ∧ compare "data" "apiVersion" = .gt ∧
    compare "data" "kind" = .lt := by
  decide

theorem toJson_eq (c : ConfigMap) :
    c.toJson = .object
      (("apiVersion", .text apiVersion) :: (Metadata.optional "data" Metadata.texts c.data ++
        [("kind", .text kindName), ("metadata", c.metadata.toJson)])) := by
  obtain ⟨metadata, data⟩ := c
  cases data <;>
    simp only [toJson, Value.record, Metadata.optional, Members.ofList, List.foldl, Members.set,
      List.append_nil, List.nil_append, List.cons_append, compare_keys]

/-- A ConfigMap is read back. -/
theorem takes_toJson (c : ConfigMap) : reader.Takes depthLimit (c.toJson.write none) c := by
  have hdata : Builds member 127 (Metadata.optional "data" Metadata.texts c.data)
      ⟨.empty, none⟩ ⟨.empty, c.data⟩ := by
    refine Metadata.builds_optional (fun h => by rw [h]) fun t h => ⟨_, rfl, ?_⟩
    rw [h]
    exact Metadata.takes_texts t (fun es => (⟨.empty, es⟩ : ConfigMap)) (Nat.succ_pos 125)
  have hmetadata : Builds member 127 [("metadata", c.metadata.toJson)] ⟨.empty, c.data⟩ c := by
    refine .cons rfl (((Metadata.takes_toJson c.metadata (by omega)).nullable ?_).map _) (.nil _)
    rw [Metadata.toJson_eq]
    exact solid_object _
  rw [toJson_eq]
  exact takes_object (.cons rfl ((takes_exactly _ _).map _)
    (hdata.append (.cons rfl ((takes_exactly _ _).map _) hmetadata))) (by omega)

theorem readBody_toJson (c : ConfigMap) :
    readBody reader c.toJson.compact.toList = .ok c := by
  rw [readBody, Value.compact, String.toList_ofList, c.takes_toJson.document]
  rfl

/-! ## Records -/

/-- The record kept in the ConfigMap of a record, once it has a uid, is that record. -/
theorem toRecord_ofRecord (key : Key) (r : Record) (uid : Option String) :
    toRecord key { ofRecord r with metadata := { (ofRecord r).metadata with uid := uid } } =
      { r with uid := uid } := by
  obtain ⟨ns, name, uid', labels, owner, data⟩ := r
  have hlabels : (if labels.isEmpty then none else some labels).getD .empty = labels := by
    split
    · next h => exact Table.eq_of_entries (List.isEmpty_iff.1 h).symm
    · rfl
  have howner : ((owner.map fun o => [o]).getD []).head? = owner := by cases owner <;> rfl
  simp only [toRecord, ofRecord, Option.getD_some, hlabels, howner]

end ConfigMap

end Api

end InitLock
