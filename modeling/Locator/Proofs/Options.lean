/-
Layers of options and the settings that come of them

* `Options.merge_assoc`, `Options.merge_none_left`, `Options.merge_none_right`: options above
  options form a monoid;
* `Options.lastAsked`: what the last layer that asks for a part asks for, where each part has
  its own way of being left open;
* `Settings.of_foldl_merge`: the settings of layers take every part from that layer;
* `Settings.IsSettled`, `Settings.of_toOptions`: settings name attributes, and asking for what
  is settled settles the same;
* `Options.merge_settles`: **layers of options** and their settings.
-/
import Locator.Options
import Mathlib.Tactic

namespace Locator

variable {α : Type} {a b c o : Option Options} {layers : List (Option Options)}

namespace Options

/-! ### Options above options -/

lemma mergeAttributes_assoc (a b c : Option (List Text)) :
    mergeAttributes (mergeAttributes a b) c = mergeAttributes a (mergeAttributes b c) := by
  rcases c with _ | _ | ⟨s, ss⟩ <;> rfl

lemma mergeStrategy_assoc (a b c : Option Text) :
    mergeStrategy (mergeStrategy a b) c = mergeStrategy a (mergeStrategy b c) := by
  rcases c with _ | _ | ⟨x, s⟩ <;> rfl

lemma mergeRoot_assoc (a b c : Thing) :
    mergeRoot (mergeRoot a b) c = mergeRoot a (mergeRoot b c) := by
  rw [mergeRoot, mergeRoot, mergeRoot, mergeRoot]
  split_ifs <;> rfl

lemma mergeParts_assoc (a b c : Options) :
    mergeParts (mergeParts a b) c = mergeParts a (mergeParts b c) := by
  simp only [mergeParts, mergeAttributes_assoc, mergeStrategy_assoc, mergeRoot_assoc,
    Option.or_assoc]

@[simp]
lemma merge_none_left (a : Option Options) : merge none a = a := rfl

@[simp]
lemma merge_none_right (a : Option Options) : merge a none = a := by cases a <;> rfl

lemma merge_assoc (a b c : Option Options) :
    merge (merge a b) c = merge a (merge b c) := by
  cases a with
  | none => rfl
  | some a =>
      cases b with
      | none => rfl
      | some b =>
          cases c with
          | none => rfl
          | some c => exact congrArg some (mergeParts_assoc a b c)

/-! ### What the last layer asks for -/

/-- The attributes that options ask for; an empty list asks for none. -/
def askedAttributes (o : Options) : Option (List Text) := o.attributes.filter (!·.isEmpty)

/-- The name of the strategy that options ask for; an empty one is none. -/
def askedStrategy (o : Options) : Option Text := o.strategy.filter (!·.isEmpty)

/-- The root that options ask for. -/
def askedRoot (o : Options) : Option Thing := if o.root.isNothing then none else some o.root

/-- What the last layer that asks for a part asks for. -/
def lastAsked (ask : Options → Option α) (layers : List (Option Options)) : Option α :=
  (layers.filterMap (·.bind ask)).getLast?

/-- Of a part the layer above decides, unless it leaves it open. -/
def IsLayered (ask : Options → Option α) : Prop :=
  ∀ below above, ask (mergeParts below above) = (ask above).or (ask below)

lemma isLayered_preferId : IsLayered Options.preferId := fun _ _ => rfl

lemma isLayered_namespaces : IsLayered Options.namespaces := fun _ _ => rfl

lemma isLayered_attributes : IsLayered askedAttributes := by
  rintro below ⟨_, _ | _ | ⟨s, ss⟩, _, _, _⟩ <;>
    simp [askedAttributes, mergeParts, mergeAttributes, Option.filter_some]

lemma isLayered_strategy : IsLayered askedStrategy := by
  rintro below ⟨_, _, _ | _ | ⟨x, s⟩, _, _⟩ <;>
    simp [askedStrategy, mergeParts, mergeStrategy, Option.filter_some]

lemma isLayered_root : IsLayered askedRoot := by
  intro below above
  cases h : above.root.isNothing <;> simp [askedRoot, mergeParts, mergeRoot, h]

/-- One layer above another. -/
lemma IsLayered.bind_merge {ask : Options → Option α} (h : IsLayered ask) (a b : Option Options) :
    (merge a b).bind ask = (b.bind ask).or (a.bind ask) := by
  cases a with
  | none => simp
  | some a =>
      cases b with
      | none => rfl
      | some b => exact h a b

/-- **All layers**: the last one that asks for the part decides. -/
lemma IsLayered.bind_foldl {ask : Options → Option α} (h : IsLayered ask)
    (layers : List (Option Options)) :
    (layers.foldl merge none).bind ask = lastAsked ask layers := by
  induction layers using List.reverseRecOn with
  | nil => rfl
  | append_singleton layers o ih =>
      rw [List.foldl_append, List.foldl_cons, List.foldl_nil, h.bind_merge, ih, lastAsked,
        lastAsked, List.filterMap_append, List.getLast?_append]
      cases ho : o.bind ask <;> simp [ho]

end Options

namespace Settings

open Options

/-! ### Settings -/

/-- The settings of layers, each part from the last layer that asks for it. -/
def ofLast (layers : List (Option Options)) : Settings where
  preferId := (lastAsked Options.preferId layers).getD true
  attributes := attributesOf (lastAsked askedAttributes layers)
  strategy := .ofText ((lastAsked askedStrategy layers).getD [])
  root := (lastAsked askedRoot layers).getD .nothing
  namespaces := lastAsked Options.namespaces layers

/-- The settings in terms of what the options ask for. -/
lemma of_eq (o : Option Options) : Settings.of o =
    { preferId := (o.bind Options.preferId).getD true
      attributes := attributesOf (o.bind askedAttributes)
      strategy := .ofText ((o.bind askedStrategy).getD [])
      root := (o.bind askedRoot).getD .nothing
      namespaces := o.bind Options.namespaces } := by
  cases o with
  | none => rfl
  | some o =>
      have hattributes : attributesOf o.attributes = attributesOf (askedAttributes o) := by
        rcases h : o.attributes with _ | _ | ⟨s, ss⟩ <;>
          simp [askedAttributes, h, attributesOf, Option.filter_some]
      have hstrategy : o.strategy.getD [] = (askedStrategy o).getD [] := by
        rcases h : o.strategy with _ | _ | ⟨x, s⟩ <;>
          simp [askedStrategy, h, Option.filter_some]
      have hroot : o.root = (askedRoot o).getD .nothing := by
        cases h : o.root <;> simp [askedRoot, h, Thing.isNothing]
      simp only [Settings.of, Option.bind_some, hattributes, hstrategy, ← hroot]

/-- **The settings of layers** take every part from the last layer that asks for it. -/
lemma of_foldl_merge (layers : List (Option Options)) :
    Settings.of (layers.foldl merge none) = ofLast layers := by
  rw [of_eq, isLayered_preferId.bind_foldl, isLayered_attributes.bind_foldl,
    isLayered_strategy.bind_foldl, isLayered_root.bind_foldl, isLayered_namespaces.bind_foldl,
    ofLast]

/-- Settings that something can be made with: there are attributes, each of them has a name,
and the strategy is one of the three. -/
structure IsSettled (s : Settings) : Prop where
  attributes : s.attributes ≠ []
  names : ∀ a ∈ s.attributes, a ≠ []
  strategy : s.strategy.name ∈ ["auto".toList, "always".toList, "never".toList]

lemma isSettled_of (o : Option Options) : (Settings.of o).IsSettled := by
  have hall : ∀ asked, attributesOf asked ≠ [] ∧ ∀ a ∈ attributesOf asked, a ≠ [] := by
    intro asked
    rw [attributesOf]
    split
    · decide
    · next as hne =>
      refine ⟨hne, fun a ha => ?_⟩
      simpa using (List.mem_filter.mp ha).2
  have hname : ∀ s : IndexStrategy, s.name ∈ ["auto".toList, "always".toList, "never".toList] := by
    intro s
    cases s <;> decide
  rw [of_eq]
  exact ⟨(hall _).1, (hall _).2, hname _⟩

/-- Attributes with names are asked for as they are. -/
lemma attributesOf_some {as : List Text} (h : as ≠ []) (hn : ∀ a ∈ as, a ≠ []) :
    attributesOf (some as) = as := by
  have hall : as.filter (fun a => !a.isEmpty) = as :=
    List.filter_eq_self.mpr fun a ha => by simpa using hn a ha
  rw [attributesOf, Option.getD_some, hall]
  cases as with
  | nil => exact absurd rfl h
  | cons a as => rfl

/-- A strategy is called by its name. -/
lemma ofText_name (s : IndexStrategy) : IndexStrategy.ofText s.name = s := by
  cases s <;> rfl

/-- What is asked for by settings is settled like that. -/
lemma of_toOptions {s : Settings} (h : s.IsSettled) : Settings.of (some s.toOptions) = s := by
  simp only [Settings.of, toOptions, Option.getD_some, attributesOf_some h.attributes h.names,
    ofText_name]

end Settings

namespace Options

/-- **Layers of options** are put together in any grouping, and nothing is an empty layer; the
settings take every part from the last layer that asks for it. Whatever is asked for, the
settings name attributes and a strategy, and asking for what is settled settles the same. -/
theorem merge_settles (a b c : Option Options) (layers : List (Option Options)) :
    merge (merge a b) c = merge a (merge b c) ∧ merge none a = a ∧ merge a none = a ∧
      Settings.of (layers.foldl merge none) = Settings.ofLast layers ∧
      (Settings.of a).IsSettled ∧
      Settings.of (some (Settings.of a).toOptions) = Settings.of a :=
  ⟨merge_assoc a b c, merge_none_left a, merge_none_right a, Settings.of_foldl_merge layers,
    Settings.isSettled_of a, Settings.of_toOptions (Settings.isSettled_of a)⟩

/-- A list without a single name hides the one below, and the usual attributes stand for it. -/
example : (Settings.of (merge (some { attributes := some ["name".toList] })
    (some { attributes := some [[]] }))).attributes = defaultAttributes := rfl

end Options

end Locator
