import InitLock.Proofs.Json.Object
import InitLock.Record

/-!
# Payloads

The payload that names a machine is read back as that machine
(`Holder.ofPayload_payload`), so payloads tell machines apart
(`Holder.payload_inj`) and the record a lock call creates names the machine of
the call (`Record.holder_naming`).
-/

namespace InitLock

open Json

namespace Holder

theorem toList_payload (machine : String) :
    (payload machine).toList = (Value.object [(nameMember, .text machine)]).write none := by
  rw [payload, Value.compact, String.toList_ofList]
  rfl

theorem ofPayload_payload (machine : String) : ofPayload (payload machine) = .ok machine := by
  have hname : Reader.Builds member 127 [(nameMember, .text machine)] none (some machine) :=
    .cons rfl ((Reader.takes_text machine 127).map some) (.nil _)
  have hread : reader.Takes 128 ((Value.object [(nameMember, .text machine)]).write none) machine :=
    Reader.takes_objectOr hname rfl (by decide)
  rw [ofPayload, toList_payload]
  exact hread.document

/-- Different machines have different payloads. -/
theorem payload_inj {machine machine' : String} :
    payload machine = payload machine' ↔ machine = machine' := by
  refine ⟨fun h => ?_, fun h => h ▸ rfl⟩
  have hread := ofPayload_payload machine
  rw [h, ofPayload_payload] at hread
  exact (Except.ok.inj hread).symm

end Holder

@[simp] theorem Record.holder_withUid (r : Record) (uid : Option String) :
    ({ r with uid := uid } : Record).holder = r.holder := rfl

theorem Record.payload?_naming (machine : String) (cluster : Cluster) (name : String) :
    (Record.naming machine cluster name).payload? = some (Holder.payload machine) := by
  simp only [Record.payload?, Record.naming, Table.get?_insert, ↓reduceIte]

/-- A record that is to name a machine does, unless the machine has no name. -/
theorem Record.holder_naming_eq (machine : String) (cluster : Cluster) (name : String) :
    (Record.naming machine cluster name).holder =
      if machine = "" then .error (.emptyName name) else .ok machine := by
  rw [Record.holder, payload?_naming]
  simp only [Holder.ofPayload_payload]
  rfl

theorem Record.holder_naming {machine : String} (hm : machine ≠ "") (cluster : Cluster)
    (name : String) : (Record.naming machine cluster name).holder = .ok machine := by
  rw [holder_naming_eq, if_neg hm]

end InitLock
