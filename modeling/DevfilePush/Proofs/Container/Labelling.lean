import DevfilePush.Proofs.Container.Desired

/-!
# Labels as a unique index

The engine keeps no index over what it holds, so label sets stand in for one: a resource is meant by a
selector if the selector's labels are all among its own. For volumes this tells every role and component
apart, whatever text names them. For containers it tells component and alias apart, and the labels of
bound ports, which are added afterwards under the ports' numbers, stay clear of both and of each other.

## Main definitions

* `Definition.Labelled`: a definition has the labels of its container and of its ports, and no others.

## Main statements

* `Labels.selects_iff_subset`: a selector means what contains it.
* `Surroundings.perm_labels`: adding the labels of ports replaces none.
* `Labels.unique_index`: which label sets contain which.
-/

namespace DevfilePush

open Conventions

namespace Labels

/-- A selector means the resources whose labels contain its own. -/
theorem selects_iff_subset {selector labels : Labels} :
    selector.selects labels = true ↔ selector.entries ⊆ labels.entries := by
  simp only [selects_iff, SortedMap.get?_eq_some_iff, List.subset_def, Prod.forall]

theorem entries_ofContainer (component aliasName : String) :
    (ofContainer component aliasName).entries =
      [(aliasLabel, aliasName), (componentLabel, component)] := by
  have h : aliasLabel < componentLabel := by decide
  simp [ofContainer, SortedMap.insert, SortedMap.insertEntry, h]

end Labels

/-! ## Keys of bound ports -/

/-- The keys of a container's labels all differ, those of its bound ports included. -/
theorem PortMap.nodup_reserved (ports : PortMap) :
    (componentLabel :: aliasLabel :: ports.labels.map (·.1)).Nodup := by
  have hcomponent : componentLabel ∉ ports.labels.map (·.1) :=
    not_mem_keys_labels toString_ne_componentLabel
  have halias : aliasLabel ∉ ports.labels.map (·.1) := not_mem_keys_labels toString_ne_aliasLabel
  have hne : componentLabel ≠ aliasLabel := by decide
  rw [List.nodup_cons, List.nodup_cons, List.mem_cons, not_or]
  exact ⟨⟨hne, hcomponent⟩, halias, ports.nodup_labels⟩

/-- The labels of bound ports are added to those of the container, and none of them gives way. -/
theorem Surroundings.perm_labels (inputs : Surroundings) (c : Component) (ports : PortMap) :
    (inputs.labels c ports).entries.Perm
      ((componentLabel, inputs.component) :: (aliasLabel, c.aliasName) :: ports.labels) := by
  have hown : (Labels.ofContainer inputs.component c.aliasName).entries.Perm
      [(componentLabel, inputs.component), (aliasLabel, c.aliasName)] := by
    rw [Labels.entries_ofContainer]
    exact .swap ..
  have hkeys : (ports.labels.map (·.1) ++
      (Labels.ofContainer inputs.component c.aliasName).keys).Nodup :=
    (List.perm_append_comm.trans ((hown.map (·.1)).append_right _)).nodup_iff.2 ports.nodup_reserved
  rw [labels_eq_foldl]
  exact (SortedMap.perm_foldl_insert hkeys).trans
    (List.perm_append_comm.trans (hown.append_right _))

/-! ## What contains which -/

/-- A definition has the labels of its container and one for each bound port, and no others. -/
structure Definition.Labelled (d : Definition) (component aliasName : String) (ports : PortMap) :
    Prop where
  ofComponent : d.config.labels.get? componentLabel = some component
  ofAlias : d.config.labels.get? aliasLabel = some aliasName
  /-- Under the number of a port there is the name of the URL bound to it, and nothing where none is. -/
  ofPort : ∀ port : Port,
    d.config.labels.get? (toString port.toNat) = (ports.urls.get? port).map (·.name)
  /-- No number of a bound port is the key of the component, of the alias or of another port. -/
  distinct : (componentLabel :: aliasLabel ::
    ports.urls.keys.map fun port => toString port.toNat).Nodup
  /-- Each of these labels is there once, and nothing else is. -/
  entries : d.config.labels.entries.Perm
    ((componentLabel, component) :: (aliasLabel, aliasName) ::
      ports.urls.entries.map fun e => (toString e.1.toNat, e.2.name))

/-- What is built is labelled as its container. -/
theorem Definition.labelled_of_build {inputs : Surroundings} {c : Component} {ports : PortMap}
    {d : Definition} (h : build inputs c ports = .ok d) :
    d.Labelled inputs.component c.aliasName ports := by
  have hlabels := labels_of_build h
  constructor
  case ofComponent => rw [hlabels, Surroundings.get?_labels_component]
  case ofAlias => rw [hlabels, Surroundings.get?_labels_alias]
  case ofPort => exact fun port => hlabels ▸ Surroundings.get?_labels_port port
  case distinct => exact ports.keys_labels ▸ ports.nodup_reserved
  case entries =>
    have hports : ports.labels = ports.urls.entries.map fun e => (toString e.1.toNat, e.2.name) := by
      rw [PortMap.labels, PortMap.names, List.map_map]
      rfl
    rw [hlabels, ← hports]
    exact inputs.perm_labels c ports

/-- **Labels are a unique index.** Whatever texts are named, the labels of a role in a component are
contained in those of a role in a component only if both are the same. The labels of an alias in a
component are contained in those of a built definition only if the definition is built for this alias in
this component: the labels of its ports replace neither label and look like neither, and each bound port
has a label of its own. -/
theorem Labels.unique_index :
    (∀ (role other : VolumeRole) (component component' : String),
      (role.labels component).entries ⊆ (other.labels component').entries ↔
        role = other ∧ component = component') ∧
    ∀ (inputs : Surroundings) (c : Component) (ports : PortMap) (d : Definition),
      Definition.build inputs c ports = .ok d →
        (∀ component aliasName : String,
          (Labels.ofContainer component aliasName).entries ⊆ d.config.labels.entries ↔
            component = inputs.component ∧ aliasName = c.aliasName) ∧
        d.Labelled inputs.component c.aliasName ports := by
  refine ⟨fun role other component component' => ?_, fun inputs c ports d hbuild =>
    ⟨fun component aliasName => ?_, Definition.labelled_of_build hbuild⟩⟩
  · rw [← selects_iff_subset, VolumeRole.labels_selects_labels]
  · rw [← selects_iff_subset, Definition.labels_of_build hbuild,
      Surroundings.ofContainer_selects_labels]

/-! ## Names that look like keys -/

/-- A push of a component that is named as a key. -/
def Labels.sampleSurroundings : Surroundings where
  component := "alias"
  volumes := ⟨"sources", none, ∅⟩
  runCommand := none
  supervisor := .standard

/-- URLs that are named as keys. -/
def Labels.samplePorts : PortMap :=
  ((PortMap.empty "127.0.0.1").bind ⟨"component", 8080, 40000, none⟩).bind ⟨"alias", 80, 40001, none⟩

/-- The container `component` of a component `alias` is found under its own names and not with both
exchanged, and a volume `projects` is not taken for the project source. -/
theorem Labels.unique_index_sample :
    (∃ d, Definition.build sampleSurroundings (.ofImage "component" "nginx") samplePorts = .ok d ∧
        d.config.labels.entries =
          [("80", "alias"), ("8080", "component"), ("alias", "component"), ("component", "alias")] ∧
        (Labels.ofContainer "alias" "component").entries ⊆ d.config.labels.entries ∧
        ¬ (Labels.ofContainer "component" "alias").entries ⊆ d.config.labels.entries) ∧
      ¬ ((VolumeRole.storage "projects").labels "type").entries ⊆
        (VolumeRole.projectSource.labels "type").entries := by
  have hindex := unique_index.2 sampleSurroundings (.ofImage "component" "nginx") samplePorts _ rfl
  refine ⟨⟨_, rfl, by decide, (hindex.1 _ _).2 ⟨rfl, rfl⟩, ?_⟩, ?_⟩
  · intro h
    exact absurd ((hindex.1 _ _).1 h).1 (by decide)
  · intro h
    exact absurd ((unique_index.1 _ _ _ _).1 h).1 (by decide)

end DevfilePush
