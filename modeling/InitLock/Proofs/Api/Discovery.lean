import InitLock.Api.Machines
import InitLock.Proofs.Api.Link
import InitLock.Proofs.Api.Request

/-!
# Discovery of machines

What discovery makes of a server that says at which versions of the group it
serves machines (`Serves`). It finds machines at one of these versions, or fails
if there is none (`Serves.find`).
-/

namespace InitLock.Api

open Discovery

/-- A version of the group as it stands in addresses and documents. -/
def Cluster.groupAt (v : String) : String := Cluster.group ++ "/" ++ v

/-- What a server has to say about machines: the versions it lists for the group, those at which
machines are served, and the machines by namespace and name. -/
structure Fleet where
  listed : String → Prop
  served : String → Prop
  machine : Key → Prop

/-- Where a machine is found at a version. -/
def machineAddress (plural v : String) (k : Key) : String :=
  "/apis/" ++ Cluster.groupAt v ++ "/namespaces/" ++ k.ns ++ "/" ++ plural ++ "/" ++ k.name

def listingAddress (v : String) : String := "/apis/" ++ Cluster.groupAt v

/-! ## Addresses -/

theorem append_left_inj {s t u : String} (h : s ++ t = s ++ u) : t = u := by
  have h := congrArg String.toList h
  rw [String.toList_append, String.toList_append] at h
  exact String.toList_injective (List.append_cancel_left h)

/-- The address of a machine by its segments, after what all such addresses begin with. -/
theorem machineAddress_eq (plural v : String) (k : Key) :
    machineAddress plural v k = listingAddress "" ++
      (v ++ "/" ++ ("namespaces/" ++ (k.ns ++ "/" ++ (plural ++ "/" ++ k.name)))) := by
  have : ("/namespaces/" : String) = "/" ++ "namespaces/" := by decide
  simp only [machineAddress, listingAddress, Cluster.groupAt, this, String.append_assoc,
    String.empty_append]

theorem listingAddress_eq (v : String) : listingAddress v = listingAddress "" ++ v := by
  simp only [listingAddress, Cluster.groupAt, String.append_assoc, String.empty_append]

theorem machineAddress_ne_listing {plural v v' : String} {k : Key} (hv : UrlSafe v') :
    machineAddress plural v k ≠ listingAddress v' := fun h => by
  rw [machineAddress_eq, listingAddress_eq v'] at h
  apply slash_not_mem hv
  rw [← append_left_inj h]
  simp

theorem machineAddress_inj {plural v v' : String} {k k' : Key} (hv : UrlSafe v) (hv' : UrlSafe v')
    (hns : UrlSafe k.ns) (hns' : UrlSafe k'.ns)
    (h : machineAddress plural v k = machineAddress plural v' k') : v = v' ∧ k = k' := by
  rw [machineAddress_eq, machineAddress_eq] at h
  obtain ⟨hversion, hrest⟩ :=
    append_slash_inj (slash_not_mem hv) (slash_not_mem hv') (append_left_inj h)
  obtain ⟨hk, hrest⟩ :=
    append_slash_inj (slash_not_mem hns) (slash_not_mem hns') (append_left_inj hrest)
  obtain ⟨ns, name⟩ := k
  obtain ⟨ns', name'⟩ := k'
  exact ⟨hversion, (Key.mk.injEq ..).mpr ⟨hk, append_left_inj hrest⟩⟩

namespace Fleet

/-- The group is listed once at most, with all versions that serve machines. -/
structure InGroups (f : Fleet) (gs : List Group) : Prop where
  once : (gs.filter fun g => g.name = Cluster.group).length ≤ 1
  listed : ∀ g ∈ gs, g.name = Cluster.group →
    ∀ e ∈ g.versions, ∃ v, f.listed v ∧ e = ⟨Cluster.groupAt v, v⟩
  served : ∀ v, f.served v →
    ∃ g ∈ gs, g.name = Cluster.group ∧ ⟨Cluster.groupAt v, v⟩ ∈ g.versions

/-- Machines are among the resources of a version if it serves them, under one plural. -/
structure InListing (f : Fleet) (plural v : String) (l : Listing) : Prop where
  groupVersion : l.groupVersion = Cluster.groupAt v
  sound : ∀ r ∈ l.resources, r.kind = Machines.kindName → '/' ∉ r.name.toList →
    f.served v ∧ r.name = plural ∧ (r.group = none ∨ r.group = some Cluster.group)
  complete : f.served v → ∃ r ∈ l.resources, r.kind = Machines.kindName ∧ r.name = plural

end Fleet

/-- A server that answers, as long as nothing else changes its state, as its fleet says. -/
structure Serves {σ : Type} (server : Server σ) (plural : String) (fleet : σ → Fleet) : Prop where
  plural_safe : UrlSafe plural
  version_safe : ∀ s v, (fleet s).listed v → UrlSafe v
  steady : ∀ q s, fleet (server q s).2 = fleet s
  groups : ∀ s, ∃ gs, Server.read server groups ⟨.get, "/apis", none⟩ s = .ok gs ∧
    (fleet s).InGroups gs
  listing : ∀ s v, (fleet s).listed v → ∃ l,
    Server.read server listing ⟨.get, listingAddress v, none⟩ s = .ok l ∧
      (fleet s).InListing plural v l
  found : ∀ s v k, UrlSafe v → UrlSafe k.ns → UrlSafe k.name →
    (fleet s).served v → (fleet s).machine k →
      ∃ o, Server.read server Object.reader ⟨.get, machineAddress plural v k, none⟩ s = .ok o
  missed : ∀ s v k, UrlSafe v → UrlSafe k.ns → UrlSafe k.name →
    ¬ ((fleet s).served v ∧ (fleet s).machine k) →
      Server.Misses server ⟨.get, machineAddress plural v k, none⟩ s

/-- A resource at which machines are found at a version. -/
structure Resource.At (plural v : String) (r : Resource) : Prop where
  group : r.group = Cluster.group
  apiVersion : r.apiVersion = Cluster.groupAt v
  plural : r.plural = plural

/-! ## Choosing -/

namespace Discovery

theorem mem_sortBy {α : Type} {version : α → String} {a : α} {as : List α} :
    a ∈ Version.sortBy version as ↔ a ∈ as :=
  List.mem_mergeSort

theorem mem_flatMap_sortBy {versions : List (String × List Resource)} {r : Resource} :
    r ∈ (Version.sortBy (·.1) versions).flatMap (·.2) ↔ ∃ e ∈ versions, r ∈ e.2 := by
  simp only [List.mem_flatMap, mem_sortBy]

/-- What is chosen serves the kind at one of the versions. -/
theorem mem_of_choose {kind : String} {versions : List (String × List Resource)} {r : Resource}
    (h : choose kind versions = some r) : r.kind = kind ∧ ∃ e ∈ versions, r ∈ e.2 := by
  have := mem_sortBy.1 (List.mem_of_mem_head? h)
  rw [List.mem_filter, mem_flatMap_sortBy, decide_eq_true_eq] at this
  exact this.symm

/-- Nothing is chosen only if no version serves the kind. -/
theorem kind_ne_of_choose {kind : String} {versions : List (String × List Resource)}
    (h : choose kind versions = none) {e : String × List Resource} (he : e ∈ versions)
    {r : Resource} (hr : r ∈ e.2) : r.kind ≠ kind := by
  intro hkind
  have hmem : r ∈ Version.sortBy (·.version)
      (((Version.sortBy (·.1) versions).flatMap (·.2)).filter fun r => r.kind = kind) :=
    mem_sortBy.2 (List.mem_filter.2 ⟨mem_flatMap_sortBy.2 ⟨e, he, hr⟩, decide_eq_true hkind⟩)
  rw [List.head?_eq_none_iff.1 h] at hmem
  cases hmem

end Discovery

/-! ## What groups and listings say -/

/-- The group is not listed, or is once, with versions that are listed and all that are served. -/
theorem Fleet.InGroups.none_or_one {f : Fleet} {gs : List Group} (h : f.InGroups gs) :
    (∀ g ∈ gs, g.name ≠ Cluster.group) ∨
      ∃ g, (gs.filter fun g => g.name = Cluster.group) = [g] ∧
        (∀ e ∈ g.versions, ∃ v, f.listed v ∧ e = ⟨Cluster.groupAt v, v⟩) ∧
        ∀ v, f.served v → ⟨Cluster.groupAt v, v⟩ ∈ g.versions := by
  have hmem {g : Group} : g ∈ gs.filter (fun g => g.name = Cluster.group) ↔
      g ∈ gs ∧ g.name = Cluster.group := by simp
  have honce := h.once
  generalize gs.filter (fun g => g.name = Cluster.group) = listed at hmem honce
  match listed with
  | [] => exact .inl fun g hg hname => nomatch hmem.2 ⟨hg, hname⟩
  | [g] =>
    have hg := hmem.1 (List.mem_singleton_self g)
    refine .inr ⟨g, rfl, h.listed g hg.1 hg.2, fun v hv => ?_⟩
    obtain ⟨g', hg', hname, hv⟩ := h.served v hv
    rwa [List.mem_singleton.1 (hmem.2 ⟨hg', hname⟩)] at hv
  | _ :: _ :: _ => simp at honce

theorem splitGroupVersion_groupAt (v : String) :
    splitGroupVersion (Cluster.groupAt v) = (Cluster.group, v) := by
  have hgroup : '/' ∉ Cluster.group.toList := by decide
  rw [splitGroupVersion, Cluster.groupAt, dropWhile_slash hgroup, takeWhile_slash hgroup]
  simp

section
variable {f : Fleet} {plural v : String} {l : Listing}

theorem Fleet.InListing.at_of_mem (h : f.InListing plural v l) {r : Resource}
    (hr : r ∈ resourcesOf l) (hkind : r.kind = Machines.kindName) : f.served v ∧ r.At plural v := by
  obtain ⟨listed, hlisted, rfl⟩ := List.mem_map.1 hr
  rw [List.mem_filter] at hlisted
  obtain ⟨hserved, hname, hgroup⟩ := h.sound listed hlisted.1 hkind (by simpa using hlisted.2)
  simp only [resourceOf, h.groupVersion, splitGroupVersion_groupAt]
  refine ⟨hserved, ⟨?_, ?_, hname⟩⟩
  · rcases hgroup with hg | hg <;> rw [hg] <;> rfl
  · rfl

theorem Fleet.InListing.exists_mem (h : f.InListing plural v l) (hplural : UrlSafe plural)
    (hserved : f.served v) : ∃ r ∈ resourcesOf l, r.kind = Machines.kindName := by
  obtain ⟨r, hr, hkind, hname⟩ := h.complete hserved
  refine ⟨resourceOf l r, List.mem_map.2 ⟨r, List.mem_filter.2 ⟨hr, ?_⟩, rfl⟩, hkind⟩
  rw [hname]
  simpa using slash_not_mem hplural

end

/-! ## Runs -/

variable {σ : Type} {server : Server σ} {l : Link σ}

theorem document_ok {α : Type} {reader : Json.Reader α} {address : String}
    (h : pathText address = true) (hlen : address.utf8ByteSize ≤ maxUriLength) :
    (Link.document server reader address).run l =
      (Server.read server reader ⟨.get, address, none⟩ l.state,
        l.after server ⟨.get, address, none⟩) := by
  rw [Link.document, uriOf_of_pathText h hlen]
  exact Link.value_ok server reader _ l

theorem listGroups_of_ne {name : String} {found : Option (List (String × List Resource))}
    {gs : List Group} (h : ∀ g ∈ gs, g.name ≠ name) :
    (listGroups server name found gs).run l = (.ok found, l) := by
  induction gs with
  | nil => rfl
  | cons g gs ih =>
    rw [List.forall_mem_cons] at h
    rw [listGroups, if_neg h.1]
    exact ih h.2

theorem listGroups_of_filter {name : String} {found : Option (List (String × List Resource))}
    {g : Group} {gs : List Group} (h : (gs.filter fun g => g.name = name) = [g]) :
    (listGroups server name found gs).run l =
      match (listGroup server "/apis/" name g.versions).run l with
      | (.ok versions, l) => (.ok (some versions), l)
      | (.error e, l) => (.error e, l) := by
  induction gs with
  | nil => cases h
  | cons g' gs ih =>
    by_cases hname : g'.name = name
    · rw [List.filter_cons_of_pos (by simpa using hname), List.cons.injEq] at h
      obtain ⟨rfl, hgs⟩ := h
      rw [listGroups, if_pos hname, Query.bind_run, hname]
      rcases (listGroup server "/apis/" name g'.versions).run l with ⟨e | versions, l⟩
      · rfl
      · refine listGroups_of_ne fun g hg hgname => ?_
        have : g ∈ gs.filter fun g => g.name = name := List.mem_filter.2 ⟨hg, by simpa using hgname⟩
        rw [hgs] at this
        cases this
    · rw [List.filter_cons_of_neg (by simpa using hname)] at h
      rw [listGroups, if_neg hname]
      exact ih h

/-- What is read of versions of the group: machines exactly where they are served. -/
structure Fleet.Catalogue (f : Fleet) (plural : String) (vs : List GroupVersion)
    (read : List (String × List Resource)) : Prop where
  sound : ∀ e ∈ read, ∀ r ∈ e.2, r.kind = Machines.kindName → ∃ v, f.served v ∧ r.At plural v
  complete : ∀ v, f.served v → ⟨Cluster.groupAt v, v⟩ ∈ vs →
    ∃ e ∈ read, ∃ r ∈ e.2, r.kind = Machines.kindName

/-- What discovery may come to. -/
def Fleet.Finds (f : Fleet) (plural : String) : Except Error Resource → Prop
  | .ok r => ∃ v, f.served v ∧ r.At plural v
  | .error _ => ¬ ∃ v, f.served v

/-- The resources of every listed version can be asked for. -/
def Fleet.Listable (f : Fleet) : Prop :=
  ∀ v, f.listed v → (listingAddress v).utf8ByteSize ≤ maxUriLength

namespace Serves

variable {plural : String} {fleet : σ → Fleet}

theorem pathText_groupAt (h : Serves server plural fleet) {s : σ} {v : String}
    (hv : (fleet s).listed v) : pathText (Cluster.groupAt v) = true := by
  have hgroup : pathText (Cluster.group ++ "/") = true := by decide
  simp only [Cluster.groupAt, pathText_append] at hgroup ⊢
  rw [hgroup, pathText_of_urlSafe (h.version_safe s v hv)]
  rfl

theorem listVersions (h : Serves server plural fleet) (vs : List GroupVersion)
    (hvs : ∀ e ∈ vs, ∃ v, (fleet l.state).listed v ∧ e = ⟨Cluster.groupAt v, v⟩)
    (hfit : (fleet l.state).Listable) :
    ∃ read l', (Discovery.listVersions server "/apis/" vs).run l = (.ok read, l') ∧
      fleet l'.state = fleet l.state ∧ (fleet l.state).Catalogue plural vs read := by
  induction vs generalizing l with
  | nil => exact ⟨[], l, rfl, rfl, nofun, nofun⟩
  | cons e vs ih =>
    rw [List.forall_mem_cons] at hvs
    obtain ⟨⟨v, hv, rfl⟩, hvs⟩ := hvs
    obtain ⟨listing, hread, hlisting⟩ := h.listing l.state v hv
    have hpath : pathText (listingAddress v) = true := by
      rw [listingAddress, pathText_append, h.pathText_groupAt hv]
      decide
    have hdocument : (Link.document server Discovery.listing
        ("/apis/" ++ (⟨Cluster.groupAt v, v⟩ : GroupVersion).groupVersion)).run l =
          (.ok listing, l.after server ⟨.get, listingAddress v, none⟩) := by
      rw [← hread]
      exact document_ok hpath (hfit v hv)
    have hsteady := h.steady ⟨.get, listingAddress v, none⟩ l.state
    obtain ⟨read, l', hrun, hfleet, hcat⟩ :=
      ih (l := l.after server ⟨.get, listingAddress v, none⟩)
        (by rwa [Link.after_state, hsteady]) (by rwa [Link.after_state, hsteady])
    rw [Link.after_state, hsteady] at hfleet hcat
    refine ⟨(v, resourcesOf listing) :: read, l', ?_, hfleet, ?_, ?_⟩
    · rw [Discovery.listVersions, Query.bind_run, hdocument]
      simp only
      rw [Query.bind_run, hrun]
      rfl
    · rintro e he r hr hkind
      rcases List.mem_cons.1 he with rfl | he
      · exact ⟨v, hlisting.at_of_mem hr hkind⟩
      · exact hcat.sound e he r hr hkind
    · intro v' hserved hmem
      rcases List.mem_cons.1 hmem with heq | hmem
      · obtain ⟨-, rfl⟩ := GroupVersion.mk.inj heq
        exact ⟨_, List.mem_cons_self, hlisting.exists_mem h.plural_safe hserved⟩
      · obtain ⟨e, he, hr⟩ := hcat.complete v' hserved hmem
        exact ⟨e, List.mem_cons_of_mem _ he, hr⟩

/-- A group is asked for by the list of all groups. -/
theorem resources_run {name : String} {gs : List Group} {l₁ : Link σ} (hname : name ≠ "")
    (hread : (Link.document server Discovery.groups "/apis").run l = (.ok gs, l₁)) :
    (Discovery.resources server name).run l =
      match (listGroups server name none gs).run l₁ with
      | (.ok found, l) => (.ok (found.getD []), l)
      | (.error e, l) => (.error e, l) := by
  rw [Discovery.resources, Query.bind_run, hread]
  simp only [Query.bind_run, if_neg hname]
  rcases (listGroups server name none gs).run l₁ with ⟨e | found, l⟩ <;> rfl

/-- The resources of the group are read at all versions that it has, and it has all that serve
machines. -/
theorem listGroup (h : Serves server plural fleet) {g : Group}
    (hlisted : ∀ e ∈ g.versions, ∃ v, (fleet l.state).listed v ∧ e = ⟨Cluster.groupAt v, v⟩)
    (hserved : ∀ v, (fleet l.state).served v → ⟨Cluster.groupAt v, v⟩ ∈ g.versions)
    (hfit : (fleet l.state).Listable) :
    ∃ answer l', (Discovery.listGroup server "/apis/" Cluster.group g.versions).run l =
        (answer, l') ∧ fleet l'.state = fleet l.state ∧
      match answer with
      | .ok read => (fleet l.state).Catalogue plural g.versions read
      | .error _ => ¬ ∃ v, (fleet l.state).served v := by
  rw [Discovery.listGroup]
  by_cases hempty : g.versions.isEmpty = true
  · rw [if_pos hempty]
    refine ⟨_, _, rfl, rfl, fun ⟨v, hv⟩ => ?_⟩
    have := hserved v hv
    rw [List.isEmpty_iff.1 hempty] at this
    cases this
  · obtain ⟨read, l', hlist, hfleet, hcat⟩ := h.listVersions g.versions hlisted hfit
    rw [if_neg hempty, hlist]
    exact ⟨_, _, rfl, hfleet, hcat⟩

/-- The resources of the group are read at all versions that serve machines. -/
theorem resources (h : Serves server plural fleet) (hfit : (fleet l.state).Listable) :
    ∃ answer l', (Discovery.resources server Cluster.group).run l = (answer, l') ∧
      fleet l'.state = fleet l.state ∧
      match answer with
      | .ok read => ∃ vs, (fleet l.state).Catalogue plural vs read ∧
          ∀ v, (fleet l.state).served v → ⟨Cluster.groupAt v, v⟩ ∈ vs
      | .error _ => ¬ ∃ v, (fleet l.state).served v := by
  obtain ⟨gs, hread, hgs⟩ := h.groups l.state
  have hsteady : fleet (l.after server ⟨.get, "/apis", none⟩).state = fleet l.state :=
    h.steady _ _
  have hdocument : (Link.document server Discovery.groups "/apis").run l =
      (.ok gs, l.after server ⟨.get, "/apis", none⟩) := by
    rw [← hread]
    exact document_ok (by decide) (by decide)
  generalize l.after server ⟨.get, "/apis", none⟩ = l₁ at hsteady hdocument
  rw [resources_run (by decide) hdocument]
  rcases hgs.none_or_one with hnone | ⟨g, hfilter, hlisted, hserved⟩
  · rw [listGroups_of_ne hnone]
    refine ⟨_, _, rfl, hsteady, [], ⟨nofun, nofun⟩, fun v hv => ?_⟩
    obtain ⟨g, hg, hname, -⟩ := hgs.served v hv
    exact absurd hname (hnone g hg)
  · rw [← hsteady] at hlisted hserved hfit
    obtain ⟨answer, l', hrun, hfleet, hanswer⟩ := h.listGroup hlisted hserved hfit
    rw [listGroups_of_filter hfilter, hrun]
    rw [hsteady] at hfleet hanswer hserved
    cases answer with
    | ok read => exact ⟨_, _, rfl, hfleet, g.versions, hanswer, hserved⟩
    | error => exact ⟨_, _, rfl, hfleet, hanswer⟩

/-- Discovery finds machines at a version that serves them, and fails if none does. -/
theorem find (h : Serves server plural fleet) (hfit : (fleet l.state).Listable) :
    ∃ answer l', Discovery.find server Cluster.group Machines.kindName l = (answer, l') ∧
      fleet l'.state = fleet l.state ∧ (fleet l.state).Finds plural answer := by
  obtain ⟨answer, l₁, hrun, hfleet, hanswer⟩ := h.resources hfit
  unfold Discovery.find
  rw [Action.bind_run, hrun]
  cases answer with
  | error f => exact ⟨_, _, rfl, hfleet, hanswer⟩
  | ok read =>
    obtain ⟨vs, hcat, hserved⟩ := hanswer
    simp only
    cases hchoose : choose Machines.kindName read with
    | none =>
      refine ⟨_, _, rfl, hfleet, fun ⟨v, hv⟩ => ?_⟩
      obtain ⟨e, he, r, hr, hkind⟩ := hcat.complete v hv (hserved v hv)
      exact kind_ne_of_choose hchoose he hr hkind
    | some r =>
      obtain ⟨hkind, e, he, hr⟩ := mem_of_choose hchoose
      exact ⟨_, _, rfl, hfleet, hcat.sound e he r hr hkind⟩

end Serves

end InitLock.Api
