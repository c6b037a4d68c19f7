import InitLock.Api.Link
import InitLock.Api.Machines
import InitLock.Proofs.Api.Link
import Mathlib.Control.Monad.Basic

/-!
# When a machine is reported absent

`alive_false_iff` says exactly which requests lie behind the answer that a
machine does not exist. The first 404 is followed by discovery. If discovery
finds machines at the version they were looked for at, the answer rests on a
404 that has been confirmed. If they have moved, the machine is looked for once
more, and a second 404 is the answer without another discovery.
-/

namespace InitLock.Api.Machines

variable {σ : Type} {server : Server σ} {r : Resource} {ns machine : String} {l l' : Link σ}

/-! ## Looking up -/

/-- What an answer to the request for a machine says of it. -/
def verdict : Except Failure Object → Except Error Bool
  | .ok _ => .ok true
  | .error f => if f.isNotFound then .ok false else .error (.api f)

theorem lookUp_ok {q : Request} (hq : request r ns machine = .ok q) :
    lookUp server r ns machine l =
      (verdict (Server.read server Object.reader q l.state), l.after server q) := by
  unfold lookUp
  rw [hq, Action.bind_run, Link.value_ok]
  cases Server.read server Object.reader q l.state <;> rfl

theorem lookUp_error {flaw : RequestFlaw} (hq : request r ns machine = .error flaw) :
    lookUp server r ns machine l = (.error (.api (.unsent flaw)), l) := by
  unfold lookUp
  rw [hq]
  rfl

theorem verdict_eq_false_iff {answer : Except Failure Object} :
    verdict answer = .ok false ↔ ∃ f, answer = .error f ∧ f.isNotFound := by
  unfold verdict
  split
  · simp
  · split <;> simp_all

/-- A machine that is looked up and not found has been asked for, and the answer was a 404. -/
theorem lookUp_false_iff :
    lookUp server r ns machine l = (.ok false, l') ↔
      ∃ q, request r ns machine = .ok q ∧ Server.Misses server q l.state ∧
        l' = l.after server q := by
  cases hq : request r ns machine with
  | error flaw =>
    rw [lookUp_error hq]
    exact ⟨nofun, nofun⟩
  | ok q =>
    rw [lookUp_ok hq, Prod.mk.injEq, verdict_eq_false_iff, ← Server.misses_iff]
    simp [eq_comm]

/-! ## The answer -/

/-- What lies behind the answer that a machine does not exist, from the link `l` over which it is
looked up at `r` to the resource that is kept and the link that is left. -/
inductive Absence (server : Server σ) (r : Resource) (ns machine : String) (l : Link σ) :
    Resource → Link σ → Prop
  /-- Discovery after the 404 finds machines at the version of `r`. -/
  | confirmed {q : Request} {current : Resource} {l' : Link σ}
    (hq : request r ns machine = .ok q) (hmiss : Server.Misses server q l.state)
    (hfind : Discovery.find server Cluster.group kindName (l.after server q) = (.ok current, l'))
    (hversion : current.apiVersion = r.apiVersion) :
    Absence server r ns machine l current (l'.reported (.machineAbsent ns machine))
  /-- Discovery after the 404 finds machines at another version, and a 404 there ends the call. -/
  | moved {q q' : Request} {current : Resource} {l' : Link σ}
    (hq : request r ns machine = .ok q) (hmiss : Server.Misses server q l.state)
    (hfind : Discovery.find server Cluster.group kindName (l.after server q) = (.ok current, l'))
    (hversion : current.apiVersion ≠ r.apiVersion)
    (hq' : request current ns machine = .ok q') (hmiss' : Server.Misses server q' l'.state) :
    Absence server r ns machine l current
      ((l'.reported (.versionChanged ns machine current.apiVersion)).after server q')

section
variable {current : Resource} {l₁ : Link σ}

theorem confirm_of_error {e : Error}
    (h : Discovery.find server Cluster.group kindName l = (.error e, l₁)) :
    confirm server r ns machine l = ((.error e, none), l₁) := by
  unfold confirm discover
  simp only [Action.bind_run, h]
  rfl

theorem confirm_of_eq (h : Discovery.find server Cluster.group kindName l = (.ok current, l₁))
    (hversion : current.apiVersion = r.apiVersion) :
    confirm server r ns machine l =
      ((.ok false, some current), l₁.reported (.machineAbsent ns machine)) := by
  unfold confirm discover
  simp only [Action.bind_run, h, Action.pure_run, hversion, ↓reduceIte]
  rfl

theorem confirm_of_ne (h : Discovery.find server Cluster.group kindName l = (.ok current, l₁))
    (hversion : current.apiVersion ≠ r.apiVersion) {answer : Except Error Bool}
    (hlook : lookUp server current ns machine
      (l₁.reported (.versionChanged ns machine current.apiVersion)) = (answer, l')) :
    confirm server r ns machine l = ((answer, some current), l') := by
  unfold confirm discover
  simp only [Action.bind_run, h, Action.pure_run, hversion, ↓reduceIte, Link.report_run, hlook]
  rfl

end

section
variable {kept : Option Resource}

theorem alive_of_error {e : Error} (h : (resource server kept l).1.1 = .error e) :
    alive server ns machine kept l =
      ((.error e, (resource server kept l).1.2), (resource server kept l).2) := by
  unfold alive
  rw [Action.bind_run]
  simp only [h]
  rfl

/-- A machine that is missed where it is looked up first is absent if that is confirmed. -/
theorem alive_of_false (h : (resource server kept l).1.1 = .ok r) {l₁ : Link σ}
    (hlook : lookUp server r ns machine (resource server kept l).2 = (.ok false, l₁)) :
    alive server ns machine kept l = confirm server r ns machine l₁ := by
  unfold alive
  rw [Action.bind_run]
  simp only [h]
  rw [Action.bind_run, hlook]

theorem alive_of_ne (h : (resource server kept l).1.1 = .ok r) {answer : Except Error Bool}
    {l₁ : Link σ} (hlook : lookUp server r ns machine (resource server kept l).2 = (answer, l₁))
    (hne : answer ≠ .ok false) :
    alive server ns machine kept l = ((answer, (resource server kept l).1.2), l₁) := by
  unfold alive
  rw [Action.bind_run]
  simp only [h]
  rw [Action.bind_run, hlook]
  rcases answer with e | b
  · rfl
  · cases b
    · exact absurd rfl hne
    · rfl

end

theorem confirm_false_iff {q : Request} (hq : request r ns machine = .ok q)
    (hmiss : Server.Misses server q l.state) {kept' : Option Resource} :
    confirm server r ns machine (l.after server q) = ((.ok false, kept'), l') ↔
      ∃ current, kept' = some current ∧ Absence server r ns machine l current l' := by
  constructor
  · intro h
    rcases hfind : Discovery.find server Cluster.group kindName (l.after server q) with
      ⟨e | current, l₁⟩
    · rw [confirm_of_error hfind] at h
      cases h
    by_cases hversion : current.apiVersion = r.apiVersion
    · rw [confirm_of_eq hfind hversion] at h
      cases h
      exact ⟨current, rfl, .confirmed hq hmiss hfind hversion⟩
    rcases hlook : lookUp server current ns machine
      (l₁.reported (.versionChanged ns machine current.apiVersion)) with ⟨answer, l₂⟩
    rw [confirm_of_ne hfind hversion hlook] at h
    cases h
    obtain ⟨q', hq', hmiss', rfl⟩ := lookUp_false_iff.1 hlook
    exact ⟨current, rfl, .moved hq hmiss hfind hversion hq' hmiss'⟩
  · rintro ⟨current, rfl, h⟩
    cases h with
    | confirmed hq₁ _ hfind hversion =>
      obtain rfl : q = _ := Except.ok.inj (hq.symm.trans hq₁)
      exact confirm_of_eq hfind hversion
    | moved hq₁ _ hfind hversion hq' hmiss' =>
      obtain rfl : q = _ := Except.ok.inj (hq.symm.trans hq₁)
      exact confirm_of_ne hfind hversion (lookUp_false_iff.2 ⟨_, hq', hmiss', rfl⟩)

/-- A machine is reported absent exactly if it was missed where it was looked up first and either
discovery after that finds machines at the same version, or it is missed at the version to which
machines have moved. -/
theorem alive_false_iff {kept kept' : Option Resource} :
    alive server ns machine kept l = ((.ok false, kept'), l') ↔
      ∃ r current, (resource server kept l).1.1 = .ok r ∧ kept' = some current ∧
        Absence server r ns machine (resource server kept l).2 current l' := by
  constructor
  · intro h
    cases hr : (resource server kept l).1.1 with
    | error e =>
      rw [alive_of_error hr] at h
      cases h
    | ok r =>
      rcases hlook : lookUp server r ns machine (resource server kept l).2 with ⟨answer, l₁⟩
      by_cases hne : answer = .ok false
      · subst hne
        rw [alive_of_false hr hlook] at h
        obtain ⟨q, hq, hmiss, rfl⟩ := lookUp_false_iff.1 hlook
        obtain ⟨current, hkept, habsent⟩ := (confirm_false_iff hq hmiss).1 h
        exact ⟨r, current, rfl, hkept, habsent⟩
      · rw [alive_of_ne hr hlook hne] at h
        cases h
        exact absurd rfl hne
  · rintro ⟨r, current, hr, rfl, h⟩
    obtain ⟨q, hq, hmiss⟩ : ∃ q, request r ns machine = .ok q ∧
        Server.Misses server q (resource server kept l).2.state := by
      cases h with
      | confirmed hq hmiss => exact ⟨_, hq, hmiss⟩
      | moved hq hmiss => exact ⟨_, hq, hmiss⟩
    rw [alive_of_false hr (lookUp_false_iff.2 ⟨q, hq, hmiss, rfl⟩), confirm_false_iff hq hmiss]
    exact ⟨current, rfl, h⟩

/-! ## A machine that moves while it is looked for -/

def jsonAnswer (status : Nat) (v : Json.Value) : Answer :=
  .response status (Text.utf8 (v.write none))

def missing : Answer :=
  jsonAnswer 404 (.object [("status", .text "Failure"), ("code", .number (.whole 404))])

theorem missing_text : missing.text = .error (.refused ⟨"Failure", "", "", 404⟩) := by
  decide +kernel

/-- The list of groups, of which there is one if it has versions. -/
def groupsAnswer (versions : List String) : Answer :=
  let version (v : String) : Json.Value :=
    .object [("groupVersion", .text (Cluster.group ++ "/" ++ v)), ("version", .text v)]
  let group : Json.Value :=
    .object [("name", .text Cluster.group), ("versions", .list (versions.map version))]
  jsonAnswer 200 (.object [("groups", .list (if versions.isEmpty then [] else [group]))])

/-- The list of the resources at one version of the group; machines are listed as `plurals`. -/
def listingAnswer (version : String) (plurals : List String) : Answer :=
  let resource (plural : String) : Json.Value :=
    .object [("name", .text plural), ("kind", .text kindName)]
  jsonAnswer 200 (.object [("groupVersion", .text (Cluster.group ++ "/" ++ version)),
    ("resources", .list (plurals.map resource))])

/-- Machines move to another version after the first 404, and are withdrawn before the second. -/
def withdrawal : List Answer :=
  [groupsAnswer ["v1beta2"], listingAnswer "v1beta2" ["machines"], missing,
    groupsAnswer ["v1beta1"], listingAnswer "v1beta1" ["machines"], missing, groupsAnswer []]

/-- The second 404 is not confirmed: the call ends with it, and that machines are no longer served
stays unread. -/
theorem alive_false_unconfirmed :
    let call := alive replay "eksa-system" "etcd-0" none (Link.fresh withdrawal)
    call.1.1 = .ok false ∧ call.2.state = [groupsAnswer []] ∧
      call.2.sent.map (·.uri) =
        ["/apis", "/apis/cluster.x-k8s.io/v1beta2",
          "/apis/cluster.x-k8s.io/v1beta2/namespaces/eksa-system/machines/etcd-0",
          "/apis", "/apis/cluster.x-k8s.io/v1beta1",
          "/apis/cluster.x-k8s.io/v1beta1/namespaces/eksa-system/machines/etcd-0"] := by
  decide +kernel

end InitLock.Api.Machines
