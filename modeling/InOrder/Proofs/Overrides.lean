import Mathlib.Data.List.Nodup
import InOrder.Proofs.Settings

/-!
# A configuration overrides the defaults

An overlay is a list of sections, each with the settings that it gives and their values
(`Overlay`). `Overlay.Spelt` says which texts spell it: the sections and the settings stand in any
order, each under either of its names, with members of other names anywhere between them.

* `Config.parse_overrides`: a text that gives no section and no setting twice is read as the default
  configuration with the given settings replaced, and any other is refused.
-/

namespace InOrder

/-! ## Objects and tables -/

/-- The object gives the items, in this order. The members between them have other names. -/
inductive Gives {α : Type} (IsName : String → Prop) (Item : α → Json.Member → Prop) :
    List α → List Json.Member → Prop
  | nil : Gives IsName Item [] []
  | item {a : α} {m : Json.Member} {as : List α} {ms : List Json.Member} (hitem : Item a m)
      (h : Gives IsName Item as ms) : Gives IsName Item (a :: as) (m :: ms)
  | unknown {key : List Char} {m : Json.Member} {as : List α} {ms : List Json.Member}
      (hkey : Json.Quoted m.key key) (hother : ∀ name, IsName name → name.toList ≠ key)
      (hvalue : Json.IsValue m.value) (h : Gives IsName Item as ms) :
    Gives IsName Item as (m :: ms)

/-- A table of fields, with the items that the members it knows stand for. -/
structure Table (α σ : Type) where
  fields : List (Field σ)
  IsName : String → Prop
  Item : α → Json.Member → Prop
  /-- What may be given once. -/
  label : α → String
  /-- The item can be put into the record. -/
  Sound : α → Prop
  put : α → σ → σ
  takes : ∀ {a m}, Item a m → ∃ key f, Json.Quoted m.key key ∧
    fields.find? (·.isCalled key) = some f ∧ f.name = label a ∧
    Json.Reads m.value fun v => ∀ s, (Sound a → f.put v s = .ok (put a s)) ∧
      (¬ Sound a → f.put v s = .error .unsuitable)
  passes : ∀ {key}, (∀ name, IsName name → name.toList ≠ key) →
    fields.find? (·.isCalled key) = none

namespace Table

variable {α σ : Type} (T : Table α σ)

/-- The items can be put into a record that has been given some. -/
structure Clean (seen : List String) (as : List α) : Prop where
  unseen : ∀ a ∈ as, T.label a ∉ seen
  once : (as.map T.label).Nodup
  sound : ∀ a ∈ as, T.Sound a

variable {T}

theorem clean_nil (seen : List String) : T.Clean seen [] :=
  ⟨fun _ ha => (nomatch ha), .nil, fun _ ha => (nomatch ha)⟩

theorem clean_cons {seen : List String} {a : α} {as : List α} : T.Clean seen (a :: as) ↔
    T.label a ∉ seen ∧ T.Sound a ∧ T.Clean (T.label a :: seen) as := by
  constructor
  · rintro ⟨hunseen, honce, hsound⟩
    rw [List.map_cons, List.nodup_cons] at honce
    refine ⟨hunseen a List.mem_cons_self, hsound a List.mem_cons_self, fun b hb hmem => ?_, honce.2,
      fun b hb => hsound b (List.mem_cons_of_mem a hb)⟩
    rcases List.mem_cons.mp hmem with heq | hseen
    · exact honce.1 (heq ▸ List.mem_map_of_mem hb)
    · exact hunseen b (List.mem_cons_of_mem a hb) hseen
  · rintro ⟨hunseen, hsound, hclean⟩
    refine ⟨List.forall_mem_cons.mpr ⟨hunseen, fun b hb hmem => ?_⟩, ?_,
      List.forall_mem_cons.mpr ⟨hsound, hclean.sound⟩⟩
    · exact hclean.unseen b hb (List.mem_cons_of_mem _ hmem)
    · rw [List.map_cons, List.nodup_cons]
      refine ⟨fun hmem => ?_, hclean.once⟩
      obtain ⟨b, hb, heq⟩ := List.mem_map.mp hmem
      exact hclean.unseen b hb (heq ▸ List.mem_cons_self)

/-- **The members of an object are put into the record in their order**, or one is refused. -/
theorem members_eq {as : List α} {ms : List Json.Member} (h : Gives T.IsName T.Item as ms) :
    ∀ {es : List (Except Json.Fault (List Char) × Json)}, List.Forall₂ Json.Entry ms es →
      ∀ (seen : List String) (s : σ),
        (T.Clean seen as →
          Json.members T.fields seen es s = .ok (as.foldl (fun s a => T.put a s) s)) ∧
        (¬ T.Clean seen as → Json.members T.fields seen es s = .error .unsuitable) := by
  induction h with
  | nil =>
    intro es hes seen s
    cases hes
    exact ⟨fun _ => rfl, fun hnot => absurd (clean_nil seen) hnot⟩
  | @item a m as ms hitem h ih =>
    intro es hes seen s
    obtain _ | @⟨_, ⟨e, v⟩, _, es, ⟨htext, hvalue⟩, hes⟩ := hes
    obtain ⟨key, f, hkey, hfind, hname, hreads⟩ := T.takes hitem
    obtain rfl : e = .ok key := htext key hkey
    obtain ⟨hput, hrefuse⟩ := hreads.of_readAs hvalue s
    rw [Json.members, clean_cons]
    simp only [hfind, hname, List.contains_iff_mem]
    by_cases hseen : T.label a ∈ seen
    · rw [if_pos hseen]
      exact ⟨fun hclean => absurd hseen hclean.1, fun _ => rfl⟩
    rw [if_neg hseen]
    by_cases hsound : T.Sound a
    · simp only [hput hsound]
      obtain ⟨hok, herror⟩ := ih hes (T.label a :: seen) (T.put a s)
      exact ⟨fun hclean => hok hclean.2.2, fun hnot =>
        herror fun hclean => hnot ⟨hseen, hsound, hclean⟩⟩
    · simp only [hrefuse hsound]
      exact ⟨fun hclean => absurd hclean.2.1 hsound, fun _ => trivial⟩
  | @unknown key m as ms hkey hother hvalue h ih =>
    intro es hes seen s
    obtain _ | @⟨_, ⟨e, v⟩, _, es, ⟨htext, hread⟩, hes⟩ := hes
    obtain rfl : e = .ok key := htext key hkey
    have hskip : v.skip = none := (Json.reads_value hvalue).of_readAs hread
    rw [Json.members]
    simp only [T.passes hother, hskip]
    exact ih hes seen s

/-- What is between the quotes of the keys is as the grammar has it, and the values are read. -/
theorem readable {as : List α} {ms : List Json.Member} (h : Gives T.IsName T.Item as ms) :
    (∀ m ∈ ms, Json.Skimmed m.key) ∧ ∀ m ∈ ms, Json.Reads m.value fun _ => True := by
  induction h with
  | nil => exact ⟨fun _ hm => (nomatch hm), fun _ hm => (nomatch hm)⟩
  | item hitem _ ih =>
    obtain ⟨key, f, hkey, -, -, hreads⟩ := T.takes hitem
    exact ⟨List.forall_mem_cons.mpr ⟨hkey.skimmed, ih.1⟩,
      List.forall_mem_cons.mpr ⟨hreads.mono fun _ _ => trivial, ih.2⟩⟩
  | unknown hkey _ hvalue _ ih =>
    exact ⟨List.forall_mem_cons.mpr ⟨hkey.skimmed, ih.1⟩,
      List.forall_mem_cons.mpr ⟨(Json.reads_value hvalue).mono fun _ _ => trivial, ih.2⟩⟩

/-- **An object of items is read as a record**, or refused. -/
theorem reads {as : List α} {ms : List Json.Member} {cs : List Char}
    (h : Gives T.IsName T.Item as ms) (hobject : Json.IsObject ms cs) :
    Json.Reads cs fun v => ∀ s,
      (T.Clean [] as → v.record T.fields s = .ok (as.foldl (fun s a => T.put a s) s)) ∧
      (¬ T.Clean [] as → v.record T.fields s = .error .unsuitable) := by
  obtain ⟨hkeys, hvalues⟩ := readable h
  refine (Json.reads_object hobject hkeys hvalues).mono ?_
  rintro _ ⟨es, rfl, hes⟩ s
  obtain ⟨hok, herror⟩ := members_eq h hes [] s
  refine ⟨fun hclean => ?_, fun hnot => ?_⟩
  · rw [Json.record, hok hclean]
    rfl
  · rw [Json.record, herror hnot]

end Table

/-! ## Sections -/

/-- A setting with the value that it is given. -/
structure Given (ι : Type) {σ : Type} [Settings ι σ] where
  setting : ι
  value : (Settings.kind setting).Carrier

namespace Given

variable {ι σ : Type} [Settings ι σ]

/-- The member gives the setting the value, under one of its names. -/
def Spelt (g : Given ι) (m : Json.Member) : Prop :=
  (∃ name ∈ Settings.names g.setting, Json.Quoted m.key name.toList) ∧
    (Settings.kind g.setting).Spells g.value m.value

/-- The text is an object that gives the settings. -/
def AllSpelt (gs : List (Given ι)) (cs : List Char) : Prop :=
  ∃ ms, Gives (fun name => ∃ i : ι, name ∈ Settings.names i) Spelt gs ms ∧ Json.IsObject ms cs

/-- No setting is given twice. -/
def Once (gs : List (Given ι)) : Prop := (gs.map setting).Nodup

/-- The record `s` is `default` with just the given settings replaced. -/
structure Override (gs : List (Given ι)) (default s : σ) : Prop where
  given : ∀ g ∈ gs, Settings.get g.setting s = g.value
  kept : ∀ i, (∀ g ∈ gs, g.setting ≠ i) → Settings.get i s = Settings.get i default

variable {gs : List (Given ι)} {default s : σ}

/-- There is no other such record. -/
theorem Override.unique {s' : σ} (h : Override gs default s) (h' : Override gs default s') :
    s = s' := by
  refine Settings.ext s s' fun (i : ι) => ?_
  by_cases hi : ∃ g ∈ gs, g.setting = i
  · obtain ⟨g, hg, rfl⟩ := hi
    exact (h.given g hg).trans (h'.given g hg).symm
  · have hnone : ∀ g ∈ gs, g.setting ≠ i := fun g hg heq => hi ⟨g, hg, heq⟩
    exact (h.kept i hnone).trans (h'.kept i hnone).symm

/-- The record after putting in the values one by one. -/
def putAll (gs : List (Given ι)) (s : σ) : σ :=
  gs.foldl (fun s g => Settings.put g.setting g.value s) s

theorem override_putAll (h : Once gs) (s : σ) : Override gs s (putAll gs s) := by
  induction gs generalizing s with
  | nil => exact ⟨fun _ hg => (nomatch hg), fun _ _ => rfl⟩
  | cons g gs ih =>
    obtain ⟨hfresh, hgs⟩ := List.nodup_cons.mp h
    have hrest := ih hgs (Settings.put g.setting g.value s)
    refine ⟨List.forall_mem_cons.mpr ⟨?_, hrest.given⟩, fun i hi => ?_⟩
    · have hkept := hrest.kept g.setting fun g' hg' heq =>
        hfresh (List.mem_map.mpr ⟨g', hg', heq⟩)
      exact hkept.trans (Settings.get_put_self g.setting g.value s)
    · obtain ⟨hne, hi⟩ := List.forall_mem_cons.mp hi
      exact (hrest.kept i hi).trans (Settings.get_put_of_ne g.setting i g.value s hne)

/-- The settings of a section, as the reader takes them. -/
def table (ι : Type) {σ : Type} [Settings ι σ] : Table (Given ι) σ where
  fields := (Settings.all : List ι).map Settings.field
  IsName name := ∃ i : ι, name ∈ Settings.names i
  Item := Spelt
  label g := Settings.snake g.setting
  Sound _ := True
  put g s := Settings.put g.setting g.value s
  takes := by
    rintro g m ⟨⟨name, hname, hkey⟩, hvalue⟩
    refine ⟨name.toList, Settings.field g.setting, hkey, Settings.find?_field hname, rfl,
      (ValueKind.reads hvalue).mono fun v hv s => ⟨fun _ => ?_, fun hnot => absurd trivial hnot⟩⟩
    show ((Settings.kind g.setting).read v).map (Settings.put g.setting · s) = _
    rw [hv]
    rfl
  passes hother := Settings.find?_eq_none fun i name hname => hother name ⟨i, hname⟩

/-- What is given once is taken. -/
theorem clean_iff : (table ι).Clean [] gs ↔ Once gs := by
  have hlabel : gs.map (table ι).label = (gs.map setting).map Settings.snake := by
    rw [List.map_map]
    rfl
  have hinjective : Function.Injective (Settings.snake : ι → String) := fun i j heq =>
    Settings.distinct j (Settings.mem_all j) i (Settings.mem_all i) (.inl heq)
  have honce : (gs.map (table ι).label).Nodup ↔ Once gs := by
    rw [hlabel]
    exact List.nodup_map_iff hinjective
  exact ⟨fun h => honce.mp h.once,
    fun h => ⟨fun _ _ => List.not_mem_nil, honce.mpr h, fun _ _ => trivial⟩⟩

/-- **A section is read as its settings over the record at hand**, if it gives none twice. -/
theorem AllSpelt.reads {cs : List Char} (h : AllSpelt gs cs) :
    Json.Reads cs fun v => ∀ s : σ,
      (Once gs → v.record ((Settings.all : List ι).map Settings.field) s = .ok (putAll gs s)) ∧
      (¬ Once gs →
        v.record ((Settings.all : List ι).map Settings.field) s = .error .unsuitable) := by
  obtain ⟨ms, hgives, hobject⟩ := h
  refine (Table.reads (T := table ι) hgives hobject).mono fun v hv s => ?_
  rw [← clean_iff]
  exact hv s

end Given

/-! ## Overlays -/

/-- A section with its settings. -/
inductive Section where
  | host (given : List (Given HostSetting))
  | pipeline (given : List (Given PipelineSetting))
  | faults (given : List (Given FaultSetting))

namespace Section

/-- The names of the section, the one in the style of the fields first. -/
def names : Section → List String
  | host _ => ["general"]
  | pipeline _ => ["pipeline"]
  | faults _ => ["fault_injection", "faultInjection"]

/-- A name of a section. -/
def IsName (name : String) : Prop := ∃ p : Section, name ∈ p.names

/-- What the section is listed as. -/
def label : Section → String
  | host _ => "general"
  | pipeline _ => "pipeline"
  | faults _ => "fault_injection"

/-- The text is an object that gives the settings of the section. -/
def ValueSpelt : Section → List Char → Prop
  | host gs, cs => Given.AllSpelt gs cs
  | pipeline gs, cs => Given.AllSpelt gs cs
  | faults gs, cs => Given.AllSpelt gs cs

/-- The member gives the section, under one of its names. -/
def Spelt (p : Section) (m : Json.Member) : Prop :=
  (∃ name ∈ p.names, Json.Quoted m.key name.toList) ∧ p.ValueSpelt m.value

/-- No setting of the section is given twice. -/
def Once : Section → Prop
  | host gs => Given.Once gs
  | pipeline gs => Given.Once gs
  | faults gs => Given.Once gs

/-- The settings of the host that the section gives. -/
def hostGiven : Section → List (Given HostSetting)
  | host gs => gs
  | _ => []

/-- The settings of the pipeline that the section gives. -/
def pipelineGiven : Section → List (Given PipelineSetting)
  | pipeline gs => gs
  | _ => []

/-- The settings of the faults that the section gives. -/
def faultsGiven : Section → List (Given FaultSetting)
  | faults gs => gs
  | _ => []

/-- The configuration with this section in the place of the one at hand. -/
def put (p : Section) (c : Config) : Config :=
  match p with
  | host gs => { c with host := Given.putAll gs .unset }
  | pipeline gs => { c with pipeline := Given.putAll gs .unset }
  | faults gs => { c with faults := Given.putAll gs .unset }

end Section

/-- The sections that a text gives, in its order. -/
abbrev Overlay := List Section

namespace Overlay

/-- The text spells the overlay. -/
def Spelt (d : Overlay) (text : List Char) : Prop :=
  ∃ ms gap object gap', Gives Section.IsName Section.Spelt d ms ∧ Json.IsObject ms object ∧
    Json.Gap gap ∧ Json.Gap gap' ∧ text = gap ++ (object ++ gap')

/-- No section is given twice, and no setting in a section. -/
structure Once (d : Overlay) : Prop where
  sections : (d.map Section.label).Nodup
  settings : ∀ p ∈ d, p.Once

/-- The configuration is the default one with just the given settings replaced. -/
structure Overrides (d : Overlay) (c : Config) : Prop where
  host : Given.Override (d.flatMap Section.hostGiven) ({} : Config).host c.host
  pipeline : Given.Override (d.flatMap Section.pipelineGiven) ({} : Config).pipeline c.pipeline
  faults : Given.Override (d.flatMap Section.faultsGiven) ({} : Config).faults c.faults

variable {d : Overlay} {c : Config}

theorem Overrides.unique {c' : Config} (h : d.Overrides c) (h' : d.Overrides c') : c = c' := by
  obtain ⟨host, pipeline, faults⟩ := c
  obtain rfl : host = c'.host := h.host.unique h'.host
  obtain rfl : pipeline = c'.pipeline := h.pipeline.unique h'.pipeline
  obtain rfl : faults = c'.faults := h.faults.unique h'.faults
  rfl

/-- The defaults of a section that is given are those of one that is absent. -/
theorem unset_eq : HostConfig.unset = {} ∧ PipelineConfig.unset = {} ∧ FaultConfig.unset = {} :=
  ⟨rfl, rfl, rfl⟩

/-- The configuration after putting in the sections one by one. -/
def putAll (d : Overlay) (c : Config) : Config := d.foldl (fun c p => p.put c) c

/-- A part of the configuration is overridden by the section that gives it, and by no other. -/
theorem override_putAll_proj {ι σ : Type} [Settings ι σ] (name : String) (proj : Config → σ)
    (given : Section → List (Given ι)) {default : σ}
    (hput : ∀ p c, (p.label = name ∧ (p.Once → Given.Override (given p) default (proj (p.put c)))) ∨
      (p.label ≠ name ∧ given p = [] ∧ proj (p.put c) = proj c))
    (h : d.Once) (hc : proj c = default) :
    Given.Override (d.flatMap given) default (proj (d.putAll c)) := by
  have hother : ∀ p c, p.label ≠ name → given p = [] ∧ proj (p.put c) = proj c := fun p c hne =>
    (hput p c).elim (fun hp => absurd hp.1 hne) And.right
  have hkeep : ∀ (d : Overlay) (c : Config), (∀ p ∈ d, p.label ≠ name) →
      d.flatMap given = [] ∧ proj (d.putAll c) = proj c := by
    intro d
    induction d with
    | nil => exact fun c _ => ⟨rfl, rfl⟩
    | cons p d ih =>
      intro c hd
      obtain ⟨hp, hd⟩ := List.forall_mem_cons.mp hd
      obtain ⟨hgiven, hproj⟩ := hother p c hp
      obtain ⟨hnone, hafter⟩ := ih (p.put c) hd
      exact ⟨by rw [List.flatMap_cons, hgiven, hnone]; rfl, hafter.trans hproj⟩
  induction d generalizing c with
  | nil => exact ⟨fun _ hg => (nomatch hg), fun i _ => congrArg _ hc⟩
  | cons p d ih =>
    obtain ⟨hfresh, hnodup⟩ := List.nodup_cons.mp h.sections
    obtain ⟨hp, hd⟩ := List.forall_mem_cons.mp h.settings
    show Given.Override (given p ++ d.flatMap given) default (proj (Overlay.putAll d (p.put c)))
    rcases hput p c with ⟨hname, hself⟩ | ⟨-, hgiven, hproj⟩
    · obtain ⟨hnone, hafter⟩ := hkeep d (p.put c) fun q hq heq =>
        hfresh (List.mem_map.mpr ⟨q, hq, heq.trans hname.symm⟩)
      rw [hnone, List.append_nil, hafter]
      exact hself hp
    · rw [hgiven, List.nil_append]
      exact ih ⟨hnodup, hd⟩ (hproj.trans hc)

theorem override_putAll (h : d.Once) : d.Overrides (d.putAll {}) := by
  obtain ⟨hhost, hpipeline, hfaults⟩ := unset_eq
  refine ⟨override_putAll_proj "general" Config.host Section.hostGiven (fun p c => ?_) h rfl,
    override_putAll_proj "pipeline" Config.pipeline Section.pipelineGiven (fun p c => ?_) h rfl,
    override_putAll_proj "fault_injection" Config.faults Section.faultsGiven (fun p c => ?_) h rfl⟩
  · cases p with
    | host gs => exact .inl ⟨rfl, fun hp => hhost ▸ Given.override_putAll hp _⟩
    | _ => exact .inr ⟨by simp [Section.label], rfl, rfl⟩
  · cases p with
    | pipeline gs => exact .inl ⟨rfl, fun hp => hpipeline ▸ Given.override_putAll hp _⟩
    | _ => exact .inr ⟨by simp [Section.label], rfl, rfl⟩
  · cases p with
    | faults gs => exact .inl ⟨rfl, fun hp => hfaults ▸ Given.override_putAll hp _⟩
    | _ => exact .inr ⟨by simp [Section.label], rfl, rfl⟩

/-- The value of a section is read as its settings over the defaults, if it gives none twice. -/
theorem reads_section {ι σ : Type} [Settings ι σ] {gs : List (Given ι)} {cs : List Char}
    (h : Given.AllSpelt gs cs) {fields : List (Field σ)}
    (hfields : fields = (Settings.all : List ι).map Settings.field) (unset : σ)
    (set : σ → Config → Config) :
    Json.Reads cs fun v => ∀ c,
      (Given.Once gs →
        (v.record fields unset).map (set · c) = .ok (set (Given.putAll gs unset) c)) ∧
      (¬ Given.Once gs → (v.record fields unset).map (set · c) = .error .unsuitable) := by
  refine h.reads.mono fun v hv c => ?_
  obtain ⟨hok, herror⟩ := hv unset
  rw [hfields]
  exact ⟨fun honce => by rw [hok honce]; rfl, fun hnot => by rw [herror hnot]; rfl⟩

/-- The sections of a configuration, as the reader takes them. -/
def table : Table Section Config where
  fields := Config.fields
  IsName := Section.IsName
  Item := Section.Spelt
  label := Section.label
  Sound := Section.Once
  put := Section.put
  takes := by
    rintro p m ⟨⟨name, hname, hkey⟩, hvalue⟩
    cases p with
    | host gs =>
      obtain rfl : name = "general" := List.mem_singleton.mp hname
      exact ⟨_, _, hkey, rfl, rfl,
        reads_section hvalue HostConfig.fields_eq .unset fun s c => { c with host := s }⟩
    | pipeline gs =>
      obtain rfl : name = "pipeline" := List.mem_singleton.mp hname
      exact ⟨_, _, hkey, rfl, rfl,
        reads_section hvalue PipelineConfig.fields_eq .unset fun s c => { c with pipeline := s }⟩
    | faults gs =>
      have hreads := reads_section hvalue FaultConfig.fields_eq .unset
        fun s c => { c with faults := s }
      obtain rfl | rfl : name = "fault_injection" ∨ name = "faultInjection" := by
        simpa [Section.names] using hname
      · exact ⟨_, _, hkey, rfl, rfl, hreads⟩
      · exact ⟨_, _, hkey, rfl, rfl, hreads⟩
  passes := by
    intro key hother
    have hhost := hother "general" ⟨.host [], List.mem_cons_self⟩
    have hpipeline := hother "pipeline" ⟨.pipeline [], List.mem_cons_self⟩
    have hsnake := hother "fault_injection" ⟨.faults [], List.mem_cons_self⟩
    have hcamel := hother "faultInjection" ⟨.faults [], List.mem_cons_of_mem _ List.mem_cons_self⟩
    refine List.find?_eq_none.mpr fun f hf => ?_
    simp only [Config.fields, List.mem_cons, List.not_mem_nil, or_false] at hf
    rcases hf with rfl | rfl | rfl <;> simp only [Field.isCalled, Bool.or_eq_true, beq_iff_eq] <;>
      tauto

theorem clean_iff : table.Clean [] d ↔ d.Once :=
  ⟨fun h => ⟨h.once, h.sound⟩, fun h => ⟨fun _ _ => List.not_mem_nil, h.sections, h.settings⟩⟩

/-- **An overlay is read as its sections over the default configuration**, if it is in order. -/
theorem Spelt.decode {text : List Char} (h : d.Spelt text) :
    (d.Once → Config.decode text = .ok (d.putAll {})) ∧
      (¬ d.Once → Config.decode text = .error .unsuitable) := by
  obtain ⟨ms, gap, object, gap', hgives, hobject, hgap, hgap', rfl⟩ := h
  have hends : Json.Ends gap' := by
    have happend := hgap'.ends Json.ends_nil
    rwa [List.append_nil] at happend
  have hskip : Json.skipGap gap' = [] := by
    have happend := Json.skipGap_append hgap' []
    rwa [List.append_nil] at happend
  obtain ⟨v, hvalue, hrecord⟩ := Table.reads (T := table) hgives hobject
    (3 * (gap ++ (object ++ gap')).length + 3) gap'
    (by simp only [List.length_append]; omega) hends
  have hread : Json.read (gap ++ (object ++ gap')) = (v, .ok gap') := by
    rw [Json.read, Json.value_gap _ hgap]
    exact hvalue
  have htrailing : Json.trailing gap' = none := by
    rw [Json.trailing, hskip]
    rfl
  obtain ⟨hok, herror⟩ := hrecord {}
  rw [clean_iff] at hok herror
  unfold Config.decode
  simp only [hread]
  refine ⟨fun honce => ?_, fun hnot => ?_⟩
  · have hfields : v.record Config.fields {} = .ok (d.putAll {}) := hok honce
    simp only [hfields, htrailing]
  · have hfields : v.record Config.fields {} = .error .unsuitable := herror hnot
    simp only [hfields]

end Overlay

/-- **A configuration overrides the defaults.** A text spells an overlay whatever the order of the
sections and of the settings, whichever name each has, and whatever stands under names that are
unknown. If no section and no setting in a section is given twice, there is just one configuration
that is the default one with the given settings replaced, and the outcome is this configuration, or
the error of its first bound that is broken. Otherwise the text is refused for its data. -/
theorem Config.parse_overrides {d : Overlay} {text : List Char} (h : d.Spelt text) :
    (d.Once → ∃ c, d.Overrides c ∧ (∀ c', d.Overrides c' → c' = c) ∧
      Config.parse text = c.check.map fun _ => c) ∧
      (¬ d.Once → Config.parse text = .error (.badConfig .unsuitable)) := by
  obtain ⟨hok, herror⟩ := h.decode
  refine ⟨fun honce => ?_, fun hnot => ?_⟩
  · have hoverrides := Overlay.override_putAll honce
    refine ⟨d.putAll {}, hoverrides, fun c' hc' => hc'.unique hoverrides, ?_⟩
    rw [Config.parse, hok honce]
    show ((d.putAll {}).check >>= fun _ => .ok (d.putAll {})) = _
    cases (d.putAll {}).check <;> rfl
  · rw [Config.parse, herror hnot]
    rfl

/-- The branch delay under its second name, beside a member of no known name; and the branch delay
under both names. -/
theorem Config.parse_branch_delay :
    Config.parse "\x7b\"pipeline\":\x7b\"executeBranchDelay\":2\x7d,\"x\":[]\x7d".toList =
        .ok { pipeline := { delays := { PerEdge.all 1 with eToF1 := 2 } } } ∧
      Config.parse ("\x7b\"pipeline\":\x7b\"executeBranchDelay\":2,".toList ++
        "\"execute_branch_delay\":3\x7d\x7d".toList) = .error (.badConfig .unsuitable) := by
  have hplain : ∀ name ∈ ["pipeline", "executeBranchDelay", "execute_branch_delay", "x"],
      ∀ c ∈ name.toList, c ≠ '"' ∧ c ≠ '\\' ∧ 0x20 ≤ c.toNat := by simp
  have hkey : ∀ name ∈ ["pipeline", "executeBranchDelay", "execute_branch_delay", "x"],
      Json.Quoted name.toList name.toList := fun name hname =>
    Json.quoted_of_plain (hplain name hname)
  have hcamel : Given.Spelt (⟨.delay .eToF1, (2 : UInt32)⟩ : Given PipelineSetting)
      ⟨"executeBranchDelay".toList, ['2']⟩ :=
    ⟨⟨_, List.mem_cons_of_mem _ List.mem_cons_self, hkey _ (by decide)⟩, rfl⟩
  have hsnake : Given.Spelt (⟨.delay .eToF1, (3 : UInt32)⟩ : Given PipelineSetting)
      ⟨"execute_branch_delay".toList, ['3']⟩ :=
    ⟨⟨_, List.mem_cons_self, hkey _ (by decide)⟩, rfl⟩
  constructor
  · have hother : ∀ name, Section.IsName name → name.toList ≠ "x".toList := by
      rintro name ⟨p, hp⟩ heq
      obtain rfl := String.toList_inj.mp heq
      cases p <;> exact absurd hp (by simp [Section.names])
    have hspelt : Overlay.Spelt [.pipeline [⟨.delay .eToF1, (2 : UInt32)⟩]]
        "\x7b\"pipeline\":\x7b\"executeBranchDelay\":2\x7d,\"x\":[]\x7d".toList :=
      ⟨[⟨"pipeline".toList, _⟩, ⟨"x".toList, ['[', ']']⟩], [], _, [],
        .item ⟨⟨_, List.mem_cons_self, hkey _ (by decide)⟩, _, .item hcamel .nil,
            Json.isObject_compact _ _⟩
          (.unknown (hkey "x" (by decide)) hother
            (.array (.empty Json.gap_nil) fun _ hi => (nomatch hi)) .nil),
        Json.isObject_compact _ _, Json.gap_nil, Json.gap_nil, rfl⟩
    have honce : Overlay.Once [.pipeline [⟨.delay .eToF1, (2 : UInt32)⟩]] :=
      ⟨List.nodup_singleton _, List.forall_mem_singleton.mpr (List.nodup_singleton _)⟩
    obtain ⟨c, hc, -, hparse⟩ := (Config.parse_overrides hspelt).1 honce
    obtain rfl := hc.unique (Overlay.override_putAll honce)
    exact hparse.trans rfl
  · have hspelt : Overlay.Spelt [.pipeline [⟨.delay .eToF1, (2 : UInt32)⟩,
        ⟨.delay .eToF1, (3 : UInt32)⟩]] ("\x7b\"pipeline\":\x7b\"executeBranchDelay\":2,".toList ++
          "\"execute_branch_delay\":3\x7d\x7d".toList) :=
      ⟨[⟨"pipeline".toList, _⟩], [], _, [],
        .item ⟨⟨_, List.mem_cons_self, hkey _ (by decide)⟩, _, .item hcamel (.item hsnake .nil),
          Json.isObject_compact _ _⟩ .nil,
        Json.isObject_compact _ _, Json.gap_nil, Json.gap_nil, rfl⟩
    refine (Config.parse_overrides hspelt).2 fun honce => ?_
    have htwice := List.nodup_cons.mp (honce.settings _ List.mem_cons_self)
    exact htwice.1 List.mem_cons_self

end InOrder
