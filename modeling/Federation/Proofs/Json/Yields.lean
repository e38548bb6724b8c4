import Federation.Proofs.Json.Records

/-!
# What decoders make of documents

A record holds no number that is not in its document, and nests nothing deeper. What a form yields
follows from what its fields yield, whether the document is an object or a list of the fields.
-/

namespace Federation

-- ---------------------------------------------------------------------------
-- Documents with parts that cannot be read
-- ---------------------------------------------------------------------------

namespace Document

mutual
def Holds (p : Number → Prop) : Document → Prop
  | .number n => p n
  | .array items => HoldsItems p items
  | .object members => HoldsMembers p members
  | _ => True
def HoldsItems (p : Number → Prop) : List Document → Prop
  | [] => True
  | d :: rest => d.Holds p ∧ HoldsItems p rest
def HoldsMembers (p : Number → Prop) : List (String × Document) → Prop
  | [] => True
  | (_, d) :: rest => d.Holds p ∧ HoldsMembers p rest
end

theorem holds_array {items : List Document} :
    (array items).Holds p ↔ ∀ d ∈ items, d.Holds p := by
  rw [Holds]
  induction items with
  | nil => simp [HoldsItems]
  | cons d rest ih => simp [HoldsItems, ih]

theorem holds_object {members : List (String × Document)} :
    (object members).Holds p ↔ ∀ m ∈ members, m.2.Holds p := by
  rw [Holds]
  induction members with
  | nil => simp [HoldsMembers]
  | cons m rest ih => simp [HoldsMembers, ih]

theorem Only.holds {d : Document} : d.Only p → d.Holds p := by
  induction d using Document.byParts with
  | number n => exact id
  | array items ih =>
    rw [only_array, holds_array]
    exact fun h d hd => ih d hd (h d hd)
  | object members ih =>
    rw [only_object, holds_object]
    exact fun h m hm => ih m hm (h m hm)
  | _ => exact fun _ => trivial

theorem orElse_none {x : Option α} {y : Unit → Option α} :
    x.orElse y = none ↔ x = none ∧ y () = none := by
  cases x <;> simp

theorem fault?_array {items : List Document} (h : (array items).fault? = none) :
    ∀ d ∈ items, d.fault? = none := by
  unfold fault? at *
  rw [findFault?] at h
  induction items with
  | nil => simp
  | cons d rest ih =>
    rw [findFaultItems?, orElse_none] at h
    exact List.forall_mem_cons.mpr ⟨h.1, ih h.2⟩

theorem fault?_object {members : List (String × Document)} (h : (object members).fault? = none) :
    ∀ m ∈ members, m.2.fault? = none := by
  unfold fault? at *
  rw [findFault?] at h
  induction members with
  | nil => simp
  | cons m rest ih =>
    rw [findFaultMembers?, orElse_none] at h
    exact List.forall_mem_cons.mpr ⟨h.1, ih h.2⟩

theorem Holds.only {d : Document} : d.Holds p → d.fault? = none → d.Only p := by
  induction d using Document.byParts with
  | number n => exact fun h _ => h
  | array items ih =>
    rw [only_array, holds_array]
    exact fun h readable d hd => ih d hd (h d hd) (fault?_array readable d hd)
  | object members ih =>
    rw [only_object, holds_object]
    exact fun h readable m hm => ih m hm (h m hm) (fault?_object readable m hm)
  | unreadable fault => exact fun _ readable => nomatch readable
  | _ => exact fun _ _ => trivial

structure Within (p : Number → Prop) (levels : Nat) (d : Document) : Prop where
  numbers : d.Holds p
  depth : d.depth ≤ levels

theorem Within.items {items : List Document} (h : (array items).Within p levels) :
    ∃ inner, levels = inner + 1 ∧ ∀ d ∈ items, d.Within p inner := by
  obtain ⟨inner, rfl⟩ : ∃ inner, levels = inner + 1 :=
    ⟨levels - 1, by have := h.depth; rw [Document.depth] at this; omega⟩
  have numbers := holds_array.mp h.numbers
  have depths := depth_array_le.mp h.depth
  exact ⟨inner, rfl, fun d hd => ⟨numbers d hd, depths d hd⟩⟩

theorem Within.members {members : List (String × Document)} (h : (object members).Within p levels) :
    ∃ inner, levels = inner + 1 ∧ ∀ m ∈ members, m.2.Within p inner := by
  obtain ⟨inner, rfl⟩ : ∃ inner, levels = inner + 1 :=
    ⟨levels - 1, by have := h.depth; rw [Document.depth] at this; omega⟩
  have numbers := holds_object.mp h.numbers
  have depths := depth_object_le.mp h.depth
  exact ⟨inner, rfl, fun m hm => ⟨numbers m hm, depths m hm⟩⟩

end Document

structure Json.Within (p : Number → Prop) (levels : Nat) (v : Json) : Prop where
  sorted : v.Sorted
  numbers : v.toDocument.Only p
  depth : v.toDocument.depth ≤ levels

theorem Json.Within.toDocument {v : Json} (h : v.Within p levels) :
    v.toDocument.Within p levels :=
  ⟨h.numbers.holds, h.depth⟩

theorem Json.Within.mono {v : Json} (h : v.Within p levels) (hle : levels ≤ more) :
    v.Within p more :=
  ⟨h.sorted, h.numbers, Nat.le_trans h.depth hle⟩

theorem Json.Within.weaken {v : Json} (h : v.Within p levels) (hpq : ∀ n, p n → q n) :
    v.Within q levels :=
  ⟨h.sorted, h.numbers.mono hpq, h.depth⟩

theorem Json.within_null : Json.null.Within p levels := ⟨trivial, trivial, Nat.zero_le _⟩

-- ---------------------------------------------------------------------------
-- Decoders and forms
-- ---------------------------------------------------------------------------

variable {P : Document → Prop}

def Decoder.Yields (decoder : Decoder α) (P : Document → Prop) (Q : α → Prop) : Prop :=
  ∀ source d x, P d → decoder source d = .ok x → Q x

theorem Decoder.yields_any (decoder : Decoder α) : decoder.Yields P fun _ => True :=
  fun _ _ _ _ _ => trivial

theorem Decoder.yields_json :
    Decoder.json.Yields (Document.Within p levels) (Json.Within p levels) := by
  intro source d v hd h
  unfold json at h
  split at h
  · rename_i readable
    obtain rfl := Except.ok.inj h
    exact ⟨d.sorted_toJson, Document.only_toJson (hd.numbers.only readable),
      Nat.le_trans d.depth_toJson hd.depth⟩
  · cases h

namespace Form

/-- Slots filled from such documents are such, and what is made of such slots is such. -/
structure Yields (form : Form α) (P : Document → Prop) (Q : α → Prop) (S : form.Slots → Prop) :
    Prop where
  empty : S form.empty
  fill : ∀ source n d slots after, P d → S slots →
    form.fill source n d slots = .ok (some after) → S after
  fillInOrder : ∀ source index ds slots rest, (∀ d ∈ ds, P d) →
    form.fillInOrder source index ds = .ok (slots, rest) → S slots ∧ ∀ d ∈ rest, P d
  finish : ∀ slots x, S slots → form.finish slots = .ok x → Q x

theorem yields_pure {Q : α → Prop} {value : α} (h : Q value) :
    (pure value).Yields P Q fun _ => True where
  empty := trivial
  fill _ _ _ _ _ _ _ h := by cases h
  fillInOrder _ _ _ _ _ hds h := by
    cases h
    exact ⟨trivial, hds⟩
  finish _ _ _ h' := by
    cases h'
    exact h

theorem yields_field {name : String} {decoder : Decoder α} {default : Option α} {Q : α → Prop}
    (h : decoder.Yields P Q) (hdefault : ∀ v, default = some v → Q v) :
    (field name decoder default).Yields P Q fun slot => ∀ v, slot = some v → Q v where
  empty := fun _ h => nomatch h
  fill source n d slot after hd hslot hfill := by
    simp only [field] at hfill
    split at hfill
    · cases slot with
      | some _ => cases hfill
      | none =>
        dsimp only at hfill
        cases hread : decoder source d with
        | error e =>
          rw [hread] at hfill
          cases hfill
        | ok x =>
          rw [hread] at hfill
          cases hfill
          rintro v ⟨⟩
          exact h source d x hd hread
    · cases hfill
  fillInOrder source index ds slot rest hds hfill := by
    simp only [field] at hfill
    cases ds with
    | nil =>
      dsimp only at hfill
      cases hdef : default with
      | none =>
        rw [hdef] at hfill
        cases hfill
      | some v =>
        rw [hdef] at hfill
        cases hfill
        refine ⟨?_, by simp⟩
        rintro _ ⟨⟩
        exact hdefault v hdef
    | cons d ds =>
      obtain ⟨hd, hrest⟩ := List.forall_mem_cons.mp hds
      dsimp only at hfill
      cases hread : decoder source d with
      | error e =>
        rw [hread] at hfill
        cases hfill
      | ok x =>
        rw [hread] at hfill
        cases hfill
        refine ⟨?_, hrest⟩
        rintro v ⟨⟩
        exact h source d x hd hread
  finish slot x hslot hfinish := by
    simp only [field] at hfinish
    cases slot with
    | some v =>
      cases hfinish
      exact hslot _ rfl
    | none =>
      cases hdef : default with
      | none =>
        rw [hdef] at hfinish
        cases hfinish
      | some v =>
        rw [hdef] at hfinish
        cases hfinish
        exact hdefault _ hdef

theorem Yields.both {f : Form (α → β)} {g : Form α} {Q : α → Prop} {R : β → Prop}
    {S : f.Slots → Prop} {T : g.Slots → Prop}
    (hf : f.Yields P (fun make => ∀ x, Q x → R (make x)) S) (hg : g.Yields P Q T) :
    (f.both g).Yields P R fun slots => S slots.1 ∧ T slots.2 where
  empty := ⟨hf.empty, hg.empty⟩
  fill source n d slots after hd hslots hfill := by
    obtain ⟨filled, hfirst, hrest⟩ := bind_ok hfill
    cases filled with
    | some first =>
      cases hrest
      exact ⟨hf.fill source n d _ _ hd hslots.1 hfirst, hslots.2⟩
    | none =>
      obtain ⟨filled, hsecond, hrest⟩ := bind_ok hrest
      cases filled with
      | some second =>
        cases hrest
        exact ⟨hslots.1, hg.fill source n d _ _ hd hslots.2 hsecond⟩
      | none => cases hrest
  fillInOrder source index ds slots rest hds hfill := by
    obtain ⟨⟨first, middle⟩, hfirst, hrest⟩ := bind_ok hfill
    obtain ⟨⟨second, last⟩, hsecond, hrest⟩ := bind_ok hrest
    cases hrest
    obtain ⟨sfirst, hmiddle⟩ := hf.fillInOrder source index ds first middle hds hfirst
    obtain ⟨ssecond, hlast⟩ := hg.fillInOrder source _ middle second _ hmiddle hsecond
    exact ⟨⟨sfirst, ssecond⟩, hlast⟩
  finish slots y hslots hfinish := by
    obtain ⟨make, hmake, hrest⟩ := bind_ok hfinish
    obtain ⟨x, hx, hrest⟩ := bind_ok hrest
    cases hrest
    exact hf.finish _ _ hslots.1 hmake x (hg.finish _ _ hslots.2 hx)

theorem Yields.fillAll {form : Form α} {Q : α → Prop} {S : form.Slots → Prop}
    (h : form.Yields P Q S) {source : Source} {members : List (String × Document)}
    {slots after : form.Slots} (hm : ∀ m ∈ members, P m.2) (hslots : S slots)
    (hfill : form.fillAll source members slots = .ok after) : S after := by
  induction members generalizing slots with
  | nil =>
    cases hfill
    exact hslots
  | cons m rest ih =>
    obtain ⟨hd, hrest⟩ := List.forall_mem_cons.mp hm
    obtain ⟨filled, hfirst, hmore⟩ := bind_ok hfill
    cases filled with
    | some next => exact ih hrest (h.fill source m.1 m.2 slots next hd hslots hfirst) hmore
    | none =>
      split at hmore
      · rename_i other
        cases other
      · exact ih hrest hslots hmore
      · cases hmore

theorem Yields.decode_of {form : Form α} {Q : α → Prop} {S : form.Slots → Prop}
    {whole : Document → Prop} (h : form.Yields P Q S)
    (members : ∀ members, whole (.object members) → ∀ m ∈ members, P m.2)
    (items : ∀ items, whole (.array items) → ∀ d ∈ items, P d) (name : String) :
    (form.decode name).Yields whole Q := by
  intro source d x hd hread
  cases d with
  | object parts =>
    obtain ⟨slots, hfill, hfinish⟩ := bind_ok hread
    exact h.finish slots x (h.fillAll (members parts hd) h.empty hfill) hfinish
  | array parts =>
    simp only [Form.decode] at hread
    split at hread
    · cases hread
    · cases hread
    · rename_i slots rest hfill
      split at hread
      · have filled := h.fillInOrder source 0 parts slots rest (items parts hd) hfill
        exact h.finish slots x filled.1 hread
      · cases hread
  | _ => cases hread

theorem Yields.decode {form : Form α} {Q : α → Prop} {S : form.Slots → Prop}
    (h : form.Yields (Document.Within p levels) Q S) (name : String) :
    (form.decode name).Yields (Document.Within p (levels + 1)) Q := by
  refine h.decode_of (fun members hd => ?_) (fun items hd => ?_) name
  · obtain ⟨inner, same, parts⟩ := hd.members
    cases same
    exact parts
  · obtain ⟨inner, same, parts⟩ := hd.items
    cases same
    exact parts

end Form

end Federation
