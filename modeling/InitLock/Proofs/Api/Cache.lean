import InitLock.Api.Backend
import InitLock.Proofs.Api.Discovery
import InitLock.Proofs.Api.Machines
import Mathlib.Data.List.Forall2

/-!
# The kept resource

A backend keeps the resource that serves machines from one call to the next.
Whatever has become of the versions since, a call comes to the same answer as
with nothing kept (`Serves.cache_transparent`): a resource that is out of date
leads to a 404, and a 404 to discovery.
-/

namespace InitLock.Api

section
variable {σ : Type} {server : Server σ} {plural : String} {fleet : σ → Fleet} {l : Link σ}
  {k : Key} {v : String} {r : Resource}

/-! ## What is to be answered -/

/-- The right answer to the question whether a machine exists. That no version serves machines is
an error. -/
structure Fleet.Answers (f : Fleet) (k : Key) (answer : Except Error Bool) : Prop where
  present : answer = .ok true ↔ (∃ v, f.served v) ∧ f.machine k
  absent : answer = .ok false ↔ (∃ v, f.served v) ∧ ¬ f.machine k
  failed : (∃ e, answer = .error e) ↔ ¬ ∃ v, f.served v

theorem Fleet.answers_ok {f : Fleet} {b : Bool} (hserved : ∃ v, f.served v)
    (hb : b = true ↔ f.machine k) : f.Answers k (.ok b) where
  present := by rw [Except.ok.injEq, hb]; exact ⟨fun h => ⟨hserved, h⟩, And.right⟩
  absent := by
    rw [Except.ok.injEq, ← Bool.not_eq_true, hb]
    exact ⟨fun h => ⟨hserved, h⟩, And.right⟩
  failed := ⟨nofun, fun h => absurd hserved h⟩

theorem Fleet.answers_error {f : Fleet} {e : Error} (h : ¬ ∃ v, f.served v) :
    f.Answers k (.error e) where
  present := ⟨nofun, fun hf => absurd hf.1 h⟩
  absent := ⟨nofun, fun hf => absurd hf.1 h⟩
  failed := ⟨fun _ => h, fun _ => ⟨e, rfl⟩⟩

/-- Two right answers agree but for the words of an error. -/
theorem Fleet.Answers.toOption_eq {f : Fleet} {a a' : Except Error Bool} (h : f.Answers k a)
    (h' : f.Answers k a') : a.toOption = a'.toOption := by
  cases a with
  | error e =>
    obtain ⟨e', rfl⟩ := h'.failed.2 (h.failed.1 ⟨e, rfl⟩)
    rfl
  | ok b =>
    cases b with
    | true => rw [h'.present.2 (h.present.1 rfl)]
    | false => rw [h'.absent.2 (h.absent.1 rfl)]

/-- A machine whose name may stand in an address, and that can be asked for at every version. -/
structure Askable (plural : String) (fleet : σ → Fleet) (k : Key) : Prop where
  ns : UrlSafe k.ns
  name : UrlSafe k.name
  fits : ∀ s v, (fleet s).listed v → (machineAddress plural v k).utf8ByteSize ≤ maxUriLength

theorem listingAddress_size (plural v : String) (k : Key) :
    (listingAddress v).utf8ByteSize ≤ (machineAddress plural v k).utf8ByteSize := by
  simp only [listingAddress, machineAddress, String.utf8ByteSize_append]
  omega

theorem Askable.listable (h : Askable plural fleet k) (s : σ) : (fleet s).Listable := fun v hv =>
  Nat.le_trans (listingAddress_size plural v k) (h.fits s v hv)

/-- What is kept, if anything, was found at a version that was listed once. -/
def Keeps (plural : String) (fleet : σ → Fleet) (kept : Option Resource) : Prop :=
  ∀ r ∈ kept, ∃ s v, (fleet s).listed v ∧ r.At plural v

/-! ## One lookup -/

theorem Resource.At.request_eq (h : r.At plural v) (hname : k.name ≠ "") :
    Machines.request r k.ns k.name = Request.to .get (machineAddress plural v k) none := by
  rw [Machines.request, getRequest_of_ne hname, h.group, h.apiVersion, h.plural, collection,
    if_neg (show Cluster.group ≠ "" by decide)]
  rfl

namespace Serves

theorem listed_of_served (h : Serves server plural fleet) {s : σ} (hv : (fleet s).served v) :
    (fleet s).listed v := by
  obtain ⟨gs, -, hgs⟩ := h.groups s
  obtain ⟨g, hg, hname, hmem⟩ := hgs.served v hv
  obtain ⟨v', hv', heq⟩ := hgs.listed g hg hname _ hmem
  obtain ⟨-, rfl⟩ := Discovery.GroupVersion.mk.inj heq
  exact hv'

theorem request_ok (h : Serves server plural fleet) (hk : Askable plural fleet k) {s : σ}
    (hv : (fleet s).listed v) (hr : r.At plural v) :
    Machines.request r k.ns k.name = .ok ⟨.get, machineAddress plural v k, none⟩ := by
  rw [hr.request_eq hk.name.1]
  refine Request.to_ok ?_ (hk.fits s v hv)
  simp only [machineAddress, pathText_append, h.pathText_groupAt hv, pathText_of_urlSafe hk.ns,
    pathText_of_urlSafe hk.name, pathText_of_urlSafe h.plural_safe, Bool.and_true]
  decide

/-- A machine is found at a version exactly if it exists and the version serves machines. -/
theorem lookUp (h : Serves server plural fleet) (hk : Askable plural fleet k) {s : σ}
    (hv : (fleet s).listed v) (hr : r.At plural v) :
    ∃ b l', Machines.lookUp server r k.ns k.name l = (.ok b, l') ∧
      fleet l'.state = fleet l.state ∧
      (b = true ↔ (fleet l.state).served v ∧ (fleet l.state).machine k) := by
  have hq := h.request_ok hk hv hr
  have hsafe := h.version_safe s v hv
  by_cases hin : (fleet l.state).served v ∧ (fleet l.state).machine k
  · obtain ⟨o, ho⟩ := h.found l.state v k hsafe hk.ns hk.name hin.1 hin.2
    refine ⟨true, l.after server ⟨.get, machineAddress plural v k, none⟩, ?_, h.steady _ _,
      by simpa using hin⟩
    rw [Machines.lookUp_ok hq, ho]
    rfl
  · have hmiss := h.missed l.state v k hsafe hk.ns hk.name hin
    exact ⟨false, l.after server _, Machines.lookUp_false_iff.2 ⟨_, hq, hmiss, rfl⟩, h.steady _ _,
      by simpa using hin⟩

/-! ## One call -/

/-- A 404 at a version that does not serve the machine is confirmed or found out. At the version of
the lookup it stands. At another one the machine is looked up anew, and as machines are served there
that answer is right without a further discovery. -/
theorem confirm (h : Serves server plural fleet) (hk : Askable plural fleet k)
    (hr : r.At plural v) (hmiss : ¬ ((fleet l.state).served v ∧ (fleet l.state).machine k)) :
    ∃ answer kept l', Machines.confirm server r k.ns k.name l = ((answer, kept), l') ∧
      Keeps plural fleet kept ∧ (fleet l.state).Answers k answer := by
  obtain ⟨found, l₁, hfind, hfleet, hfound⟩ := h.find (hk.listable l.state)
  cases found with
  | error e =>
    exact ⟨_, _, _, Machines.confirm_of_error hfind, nofun, Fleet.answers_error hfound⟩
  | ok current =>
    obtain ⟨v', hserved, hcurrent⟩ := hfound
    have hkept : Keeps plural fleet (some current) := fun r hr => by
      cases hr
      exact ⟨_, v', h.listed_of_served hserved, hcurrent⟩
    by_cases hversion : current.apiVersion = r.apiVersion
    · have hv : v' = v := by
        rw [hcurrent.apiVersion, hr.apiVersion, Cluster.groupAt, Cluster.groupAt] at hversion
        exact (append_slash_inj (by decide) (by decide) hversion).2
      subst hv
      refine ⟨_, _, _, Machines.confirm_of_eq hfind hversion, hkept,
        Fleet.answers_ok ⟨v', hserved⟩ ?_⟩
      simpa using fun hm => hmiss ⟨hserved, hm⟩
    · obtain ⟨b, l₂, hlook, -, hb⟩ := h.lookUp
        (l := l₁.reported (.versionChanged k.ns k.name current.apiVersion)) hk
        (h.listed_of_served hserved) hcurrent
      rw [Link.reported_state, hfleet] at hb
      refine ⟨_, _, _, Machines.confirm_of_ne hfind hversion hlook, hkept,
        Fleet.answers_ok ⟨v', hserved⟩ ?_⟩
      rw [hb, and_iff_right hserved]

theorem alive_of_resource (h : Serves server plural fleet) (hk : Askable plural fleet k)
    {kept : Option Resource} (hr : (Machines.resource server kept l).1.1 = .ok r)
    (hfleet : fleet (Machines.resource server kept l).2.state = fleet l.state)
    {s : σ} (hv : (fleet s).listed v) (hat : r.At plural v)
    (hkept : Keeps plural fleet (Machines.resource server kept l).1.2) :
    ∃ answer kept' l', Machines.alive server k.ns k.name kept l = ((answer, kept'), l') ∧
      Keeps plural fleet kept' ∧ (fleet l.state).Answers k answer := by
  obtain ⟨b, l₁, hlook, hfleet₁, hb⟩ := h.lookUp hk hv hat
    (l := (Machines.resource server kept l).2)
  rw [hfleet] at hb hfleet₁
  cases b with
  | true =>
    have hin := hb.1 rfl
    exact ⟨_, _, _, Machines.alive_of_ne hr hlook (by simp), hkept,
      Fleet.answers_ok ⟨v, hin.1⟩ (by simpa using hin.2)⟩
  | false =>
    rw [Machines.alive_of_false hr hlook, ← hfleet₁]
    refine h.confirm hk hat ?_
    rw [hfleet₁]
    simpa using hb

theorem resource_none {found : Except Error Resource} {l₁ : Link σ}
    (h : Discovery.find server Cluster.group Machines.kindName l = (found, l₁)) :
    Machines.resource server none l = ((found, found.toOption), l₁) := by
  rw [Machines.resource, Machines.discover, Action.bind_run, h]
  rfl

/-- A call comes to the right answer whatever is kept, and keeps what it has found. -/
theorem alive (h : Serves server plural fleet) (hk : Askable plural fleet k)
    {kept : Option Resource} (hkept : Keeps plural fleet kept) :
    ∃ answer kept' l', Machines.alive server k.ns k.name kept l = ((answer, kept'), l') ∧
      Keeps plural fleet kept' ∧ (fleet l.state).Answers k answer := by
  cases kept with
  | some r =>
    obtain ⟨s, v, hv, hr⟩ := hkept r rfl
    exact h.alive_of_resource hk rfl rfl hv hr hkept
  | none =>
    obtain ⟨found, l₁, hfind, hfleet, hfound⟩ := h.find (hk.listable l.state)
    have hresource := resource_none hfind
    cases found with
    | error e =>
      have hr : (Machines.resource server none l).1.1 = .error e := by rw [hresource]
      refine ⟨_, _, _, Machines.alive_of_error hr, ?_, Fleet.answers_error hfound⟩
      rw [hresource]
      nofun
    | ok r =>
      obtain ⟨v, hserved, hr⟩ := hfound
      have hv := h.listed_of_served hserved
      refine h.alive_of_resource hk (r := r) (by rw [hresource]) (by rw [hresource]; exact hfleet)
        hv hr ?_
      rw [hresource]
      intro r' hr'
      cases hr'
      exact ⟨_, v, hv, hr⟩

/-- A machine that no address has room for is not looked for, and that is an error. -/
theorem alive_of_long (h : Serves server plural fleet) (hname : k.name ≠ "")
    (hlist : (fleet l.state).Listable)
    (hlong : ∀ v, (fleet l.state).listed v →
      maxUriLength < (machineAddress plural v k).utf8ByteSize) :
    ∃ e, (Machines.alive server k.ns k.name none l).1.1 = .error e := by
  obtain ⟨found, l₁, hfind, -, hfound⟩ := h.find hlist
  have hresource := resource_none hfind
  cases found with
  | error e => exact ⟨e, by rw [Machines.alive_of_error (by rw [hresource])]⟩
  | ok r =>
    obtain ⟨v, hserved, hr⟩ := hfound
    have hq : Machines.request r k.ns k.name = .error (.uri .length) := by
      rw [hr.request_eq hname, Request.to_of_long (hlong v (h.listed_of_served hserved))]
    exact ⟨_, by
      rw [Machines.alive_of_ne (by rw [hresource]) (Machines.lookUp_error hq) nofun]⟩

end Serves

/-! ## Runs -/

/-- One machine after the other is asked after. Whatever happens between the calls, the server is
in the given state when each begins. -/
def Remote.asked (server : Server σ) : List (σ × Key) → Remote σ → List (Except Error Bool)
  | [], _ => []
  | (now, k) :: calls, s =>
    let (answer, _, s) :=
      Remote.alive server k.ns k.name { s with link := { s.link with state := now } }
    answer :: asked server calls s

/-- The answer of a backend that keeps nothing yet. -/
def Remote.askedFirst (server : Server σ) (now : σ) (k : Key) : Except Error Bool :=
  (Remote.alive server k.ns k.name ⟨Link.fresh now, none⟩).1

theorem Remote.askedFirst_eq (server : Server σ) (now : σ) (k : Key) :
    Remote.askedFirst server now k =
      (Machines.alive server k.ns k.name none (Link.fresh now)).1.1 := rfl

theorem Serves.alive_remote (h : Serves server plural fleet) (hk : Askable plural fleet k)
    {s : Remote σ} (hkept : Keeps plural fleet s.kept) :
    (fleet s.link.state).Answers k (Remote.alive server k.ns k.name s).1 ∧
      Keeps plural fleet (Remote.alive server k.ns k.name s).2.2.kept := by
  obtain ⟨answer, kept, l', hrun, hkeeps, hanswer⟩ :=
    h.alive hk hkept (l := { s.link with events := [] })
  unfold Remote.alive Remote.perform
  rw [hrun]
  exact ⟨hanswer, hkeeps⟩

/-- The right answer that does not depend on what is kept. -/
def Remote.Transparent (server : Server σ) (fleet : σ → Fleet) (call : σ × Key)
    (answer : Except Error Bool) : Prop :=
  (fleet call.1).Answers call.2 answer ∧
    answer.toOption = (Remote.askedFirst server call.1 call.2).toOption

/-- The link may be in any state: only what is kept goes from one call to the next. -/
theorem Serves.transparent_of_keeps (h : Serves server plural fleet) {calls : List (σ × Key)}
    (hcalls : ∀ c ∈ calls, Askable plural fleet c.2) {s : Remote σ}
    (hkept : Keeps plural fleet s.kept) :
    List.Forall₂ (Remote.Transparent server fleet) calls (Remote.asked server calls s) := by
  induction calls generalizing s with
  | nil => exact .nil
  | cons c calls ih =>
    obtain ⟨now, k⟩ := c
    rw [List.forall_mem_cons] at hcalls
    obtain ⟨hanswer, hkeeps⟩ := h.alive_remote hcalls.1
      (s := { s with link := { s.link with state := now } }) hkept
    obtain ⟨hfirst, -⟩ := h.alive_remote hcalls.1 (s := ⟨Link.fresh now, none⟩) nofun
    exact .cons ⟨hanswer, hanswer.toOption_eq hfirst⟩ (ih hcalls.2 hkeeps)

/-- What is kept does not show: every call of a run comes to the right answer for what the server
serves when the call begins, and to the answer it would come to with nothing kept. -/
theorem Serves.cache_transparent (h : Serves server plural fleet) (calls : List (σ × Key))
    (hcalls : ∀ c ∈ calls, Askable plural fleet c.2) (l : Link σ) :
    List.Forall₂ (Remote.Transparent server fleet) calls (Remote.asked server calls ⟨l, none⟩) :=
  h.transparent_of_keeps hcalls nofun

end

/-! ## A server that is upgraded -/

/-- The stages of an upgrade from one version of machines to another. -/
inductive Upgrade where
  | before
  | during
  | after
  | withdrawn
  deriving DecidableEq

namespace Upgrade

def versions : Upgrade → List String
  | before => ["v1beta1"]
  | during => ["v1beta2", "v1beta1"]
  | after => ["v1beta2"]
  | withdrawn => []

/-- The one machine, which is gone for a while. -/
def machines : Upgrade → List Key
  | during => []
  | _ => [⟨"eksa-system", "etcd-0"⟩]

def fleet (u : Upgrade) : Fleet where
  listed v := v ∈ u.versions
  served v := v ∈ u.versions
  machine k := k ∈ u.machines

def answer (u : Upgrade) (uri : String) : Answer :=
  if uri = "/apis" then Machines.groupsAnswer u.versions
  else
    match u.versions.find? fun v => uri = listingAddress v with
    | some v => Machines.listingAnswer v ["machines"]
    | none =>
      if u.versions.any fun v => u.machines.any fun k => uri = machineAddress "machines" v k then
        Machines.jsonAnswer 200 (.object [("metadata", .object [])])
      else Machines.missing

def server : Server Upgrade := fun q u => (u.answer q.uri, u)

theorem version_safe : ∀ (u : Upgrade), ∀ v ∈ u.versions, UrlSafe v := by
  intro u
  cases u <;> decide

theorem machine_safe : ∀ (u : Upgrade), ∀ k ∈ u.machines, UrlSafe k.ns := by
  intro u
  cases u <;> decide

theorem find?_listing : ∀ (u : Upgrade), ∀ v ∈ u.versions,
    listingAddress v ≠ "/apis" ∧
      (u.versions.find? fun v' => listingAddress v = listingAddress v') = some v := by
  intro u
  cases u <;> decide

theorem answer_listing {u : Upgrade} {v : String} (hv : v ∈ u.versions) :
    u.answer (listingAddress v) = Machines.listingAnswer v ["machines"] := by
  obtain ⟨hne, hfind⟩ := find?_listing u v hv
  simp only [answer, if_neg hne, hfind]

theorem answer_machine {u : Upgrade} {v : String} {k : Key} (hv : UrlSafe v) (hns : UrlSafe k.ns) :
    u.answer (machineAddress "machines" v k) =
      if v ∈ u.versions ∧ k ∈ u.machines then
        Machines.jsonAnswer 200 (.object [("metadata", .object [])])
      else Machines.missing := by
  have hne : machineAddress "machines" v k ≠ "/apis" := fun h => by
    have h := congrArg String.utf8ByteSize h
    have : ("/apis/" : String).utf8ByteSize = 6 ∧ ("/apis" : String).utf8ByteSize = 5 := by decide
    simp only [machineAddress, String.utf8ByteSize_append] at h
    omega
  have hfind : (u.versions.find? fun v' => machineAddress "machines" v k = listingAddress v') =
      none :=
    List.find?_eq_none.2 fun v' hv' => by
      simpa using machineAddress_ne_listing (version_safe u v' hv')
  have hany : (u.versions.any fun v' => u.machines.any fun k' =>
      machineAddress "machines" v k = machineAddress "machines" v' k') =
        decide (v ∈ u.versions ∧ k ∈ u.machines) := by
    rw [Bool.eq_iff_iff, decide_eq_true_eq]
    simp only [List.any_eq_true, decide_eq_true_eq]
    constructor
    · rintro ⟨v', hv', k', hk', heq⟩
      obtain ⟨rfl, rfl⟩ :=
        machineAddress_inj hv (version_safe u v' hv') hns (machine_safe u k' hk') heq
      exact ⟨hv', hk'⟩
    · rintro ⟨hv', hk'⟩
      exact ⟨v, hv', k, hk', rfl⟩
  simp only [answer, if_neg hne, hfind, hany, decide_eq_true_eq]

def groups (u : Upgrade) : List Discovery.Group :=
  if u.versions.isEmpty then []
  else [⟨Cluster.group, u.versions.map fun v => ⟨Cluster.groupAt v, v⟩⟩]

theorem read_groups (u : Upgrade) :
    (Machines.groupsAnswer u.versions).text.bind (readBody Discovery.groups) = .ok u.groups := by
  cases u <;> decide +kernel

theorem read_listing (u : Upgrade) : ∀ v ∈ u.versions,
    (Machines.listingAnswer v ["machines"]).text.bind (readBody Discovery.listing) =
      .ok ⟨Cluster.groupAt v, [⟨"machines", none, none, Machines.kindName⟩]⟩ := by
  cases u <;> decide +kernel

theorem read_machine :
    (Machines.jsonAnswer 200 (.object [("metadata", .object [])])).text.bind
      (readBody Object.reader) = .ok ⟨none, .empty⟩ := by
  decide +kernel

theorem inGroups (u : Upgrade) : u.fleet.InGroups u.groups := by
  cases u
  all_goals
    constructor
    · decide
    · simp +decide [groups, versions, fleet]
    · simp +decide [groups, versions, fleet]

theorem serves : Serves server "machines" fleet where
  plural_safe := by decide
  version_safe := version_safe
  steady _ _ := rfl
  groups u := ⟨u.groups, u.read_groups, u.inGroups⟩
  listing u v hv := by
    refine ⟨⟨Cluster.groupAt v, [⟨"machines", none, none, Machines.kindName⟩]⟩, ?_, rfl,
      fun r hr _ _ => ?_, fun _ => ⟨_, List.mem_cons_self, rfl, rfl⟩⟩
    · unfold Server.read server
      rw [answer_listing hv]
      exact u.read_listing v hv
    · obtain rfl := List.mem_singleton.1 hr
      exact ⟨hv, rfl, .inl rfl⟩
  found u v k hv hns _ hserved hk := by
    refine ⟨⟨none, .empty⟩, ?_⟩
    unfold Server.read server
    rw [answer_machine hv hns, if_pos ⟨hserved, hk⟩]
    exact read_machine
  missed u v k hv hns _ hnot := by
    refine ⟨⟨"Failure", "", "", 404⟩, ?_, rfl⟩
    unfold server
    rw [answer_machine hv hns]
    exact (congrArg Answer.text (if_neg hnot)).trans Machines.missing_text

theorem askable : Askable "machines" fleet ⟨"eksa-system", "etcd-0"⟩ where
  ns := by decide
  name := by decide
  fits := by
    intro u
    cases u <;> simp +decide [fleet, versions]

end Upgrade

def Upgrade.calls : List (Upgrade × Key) :=
  [.before, .during, .after, .withdrawn].map fun u => (u, ⟨"eksa-system", "etcd-0"⟩)

/-- The machine is found, missed while it is gone, found at the new version while the old one is
kept, and not looked for once no version is served. -/
theorem cache_transparent_upgrade :
    List.Forall₂ (Remote.Transparent Upgrade.server Upgrade.fleet) Upgrade.calls
      (Remote.asked Upgrade.server Upgrade.calls ⟨Link.fresh .before, none⟩) :=
  Upgrade.serves.cache_transparent Upgrade.calls
    (fun c hc => by
      obtain ⟨u, -, rfl⟩ := List.mem_map.1 hc
      exact Upgrade.askable) _

/-! ## Names that are too long -/

/-- A machine whose name no address has room for cannot be asked for, although machines are served
and it does not exist. -/
theorem alive_longName :
    Serves Upgrade.server "machines" Upgrade.fleet ∧ UrlSafe "eksa-system" ∧
      UrlSafe (longName 65536) ∧
      ¬ (Upgrade.fleet .before).Answers ⟨"eksa-system", longName 65536⟩
        (Remote.askedFirst Upgrade.server .before ⟨"eksa-system", longName 65536⟩) := by
  have hsafe : UrlSafe (longName 65536) := urlSafe_longName (by decide)
  refine ⟨Upgrade.serves, by decide, hsafe, fun hanswer => ?_⟩
  rw [Remote.askedFirst_eq] at hanswer
  obtain ⟨e, he⟩ := Upgrade.serves.alive_of_long (l := Link.fresh .before)
    (k := ⟨"eksa-system", longName 65536⟩) hsafe.1 (Upgrade.askable.listable _) fun v _ => by
      simp only [machineAddress, String.utf8ByteSize_append, size_longName, maxUriLength]
      omega
  exact hanswer.failed.1 ⟨e, he⟩ ⟨"v1beta1", List.mem_singleton_self _⟩

end InitLock.Api
