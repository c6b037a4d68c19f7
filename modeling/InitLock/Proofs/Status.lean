import InitLock.Command.Run
import InitLock.Proofs.Json.Printed

/-!
# Status reports read back

The report of a lock in JSON is one document, which says what there is to say
(`Status.parse_render`): namespace, name and state of the lock, the machine that
holds it, or why its record is malformed. No other lock and no other state has
the same report.
-/

namespace InitLock

open Json Mutex

namespace Status

/-- The members of a report, in the order of their keys. -/
def members (key : Key) : LockState → Members
  | .unlocked =>
    [("lock", .text key.name), ("namespace", .text key.ns), ("state", .text "unlocked")]
  | .held machine =>
    [("holder", .object [("machineName", .text machine)]), ("lock", .text key.name),
      ("namespace", .text key.ns), ("state", .text "held")]
  | .malformed reason =>
    [("lock", .text key.name), ("namespace", .text key.ns), ("reason", .text reason),
      ("state", .text "malformed")]

theorem compare_keys :
    compare "lock" "namespace" = .lt ∧ compare "state" "lock" = .gt ∧
    compare "state" "namespace" = .gt ∧ compare "holder" "lock" = .lt ∧
    compare "reason" "lock" = .gt ∧ compare "reason" "namespace" = .gt ∧
    compare "reason" "state" = .lt := by
  decide

theorem json_eq (key : Key) (state : LockState) : json key state = .object (members key state) := by
  cases state <;>
    simp only [json, Value.record, word, details, Members.ofList, List.append_nil,
      List.cons_append, List.nil_append, List.foldl, Members.set, compare_keys, members,
      Holder.nameMember]

theorem sorted_members (key : Key) (state : LockState) :
    (members key state).Pairwise fun a b => compare a.1 b.1 = .lt := by
  cases state <;> simp only [members, List.pairwise_cons, List.forall_mem_cons] <;> decide

theorem nested_holder (machine : String) :
    Nested 1 (.object [("machineName", .text machine)]) :=
  .object (List.pairwise_singleton _ _) fun _ hm => List.mem_singleton.1 hm ▸ .text 0 machine

theorem nested_members (key : Key) (state : LockState) :
    Nested 2 (.object (members key state)) := by
  refine .object (sorted_members key state) ?_
  cases state <;> simp [members, Nested.text, nested_holder]

/-- A report tells the key and the state. -/
theorem members_inj {key key' : Key} {state state' : LockState} :
    members key state = members key' state' ↔ key = key' ∧ state = state' := by
  obtain ⟨ns, name⟩ := key
  obtain ⟨ns', name'⟩ := key'
  cases state <;> cases state' <;> simp [members] <;> grind

/-- A report in JSON, with blanks after it or none, is read as what it says. -/
theorem document_render (key : Key) (state : LockState) (ws : List Char)
    (hw : Grammar.Blank ws) :
    Reader.any.document ((render true key state).toList ++ ws) =
      .ok (.object (members key state)) := by
  have htext : (render true key state).toList = (json key state).write (some 0) :=
    String.toList_ofList
  rw [htext, json_eq]
  exact (nested_members key state).document (by decide) (some 0) hw

theorem parse_render (key : Key) (state : LockState) :
    parse (render true key state) = .ok (.object (members key state)) := by
  have h := document_render key state [] nofun
  rwa [List.append_nil] at h

/-- What is printed of the state of a lock in JSON is one document, of the members that say it, and
nothing else has the same one. -/
theorem lossless_json :
    (∀ (key : Key) (state : LockState),
      parse (render true key state) = .ok (.object (members key state))) ∧
    (∀ (key key' : Key) (state state' : LockState),
      render true key state = render true key' state' ↔ key = key' ∧ state = state') ∧
    ∀ (i : Command.Invocation) (state : LockState),
      let key := i.config.lockKey i.cluster
      let printed := render true key state ++ "\n"
      ({ i with action := .status true } : Command.Invocation).conclude (.observed state) =
          ⟨.ok (), printed, []⟩ ∧
        parse printed = .ok (.object (members key state)) := by
  refine ⟨parse_render, fun key key' state state' => ⟨fun h => ?_, ?_⟩, fun i state => ?_⟩
  · have hread := parse_render key state
    rw [h, parse_render] at hread
    injection hread with hread
    injection hread with hread
    obtain ⟨rfl, rfl⟩ := members_inj.1 hread
    exact ⟨rfl, rfl⟩
  · rintro ⟨rfl, rfl⟩
    rfl
  · intro key printed
    refine ⟨rfl, ?_⟩
    rw [parse, String.toList_append]
    exact document_render key state _ (by simp [Grammar.Blank])

end Status

end InitLock
