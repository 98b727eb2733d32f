/-
XML documents

* `Name.isXml`, `Binding.isXml`, `Markup.isXml`: names and bindings that XML
  allows;
* `Document.IsXml`: a document with one root element, and with such names and
  bindings;
* `Name.expanded_inj`: the spelling with the namespace in braces tells names
  apart;
* `Text.isXmlText_of_isName`: names are XML text.
-/
import Locator.Proofs.Document.Whole
import Locator.Proofs.Text.Name

namespace Locator

/-! ### Characters of names -/

namespace Text

/-- Names are XML text. -/
lemma isXmlChar_of_isNameChar {c : Char} (h : isNameChar c = true) : isXmlChar c = true := by
  simp only [isNameChar, isNameStart, Bool.or_eq_true, Bool.and_eq_true, decide_eq_true_eq,
    beq_iff_eq, isAlpha_iff, isDigit_iff, ← Char.toNat_inj] at h
  simp only [isXmlChar, Bool.or_eq_true, Bool.and_eq_true, decide_eq_true_eq, beq_iff_eq]
  have hscore : '_'.toNat = 95 := rfl
  have hhyphen : '-'.toNat = 45 := rfl
  have hpoint : '.'.toNat = 46 := rfl
  omega

lemma isXmlText_of_isName {s : Text} (h : IsName s) : isXmlText s = true := by
  rw [isXmlText, List.all_eq_true]
  exact fun c hc => isXmlChar_of_isNameChar (h.isNameChar c hc)

lemma isXmlText_append {s t : Text} : isXmlText (s ++ t) = (isXmlText s && isXmlText t) :=
  List.all_append

/-- A slash in front does not matter, nor does a step to the context node. -/
lemma isXmlText_slash (s : Text) : isXmlText ('/' :: s) = isXmlText s := rfl

lemma isXmlText_point (s : Text) : isXmlText ('.' :: s) = isXmlText s := rfl

/-- A name between slashes holds no other characters than what is read behind it. -/
lemma isXmlText_behind {s : Text} (hs : isXmlText s = true) (t : Text) :
    isXmlText ('/' :: (s ++ '/' :: t)) = isXmlText ('.' :: '/' :: t) := by
  rw [isXmlText_slash, isXmlText_append, hs, Bool.true_and, isXmlText_point]

/-- What is left of XML text is XML text. -/
lemma isXmlText_of_sublist {s t : Text} (h : s.Sublist t) (ht : isXmlText t) :
    isXmlText s = true := by
  rw [isXmlText, List.all_eq_true] at ht ⊢
  exact fun c hc => ht c (h.subset hc)

end Text

/-! ### Names and bindings -/

/-- A name that XML allows: a prefix stands only where there is a namespace. -/
def Name.isXml (n : Name) : Bool :=
  Node.isPathName n.base &&
    match n.pfx with
    | none => true
    | some p => Node.isPathName p && n.uri.isSome

/-- A binding that XML allows: a prefix is a name and never bound to nothing, and
`xml` is bound to its own namespace alone. -/
def Binding.isXml (b : Binding) : Bool :=
  match b.pfx with
  | none => true
  | some p =>
    Node.isPathName p && !b.uri.isEmpty && Text.isXmlText b.uri &&
      (p != "xml".toList || b.uri == Scope.xmlUri)

/-- A piece whose name and bindings XML allows. -/
def Markup.isXml : Markup → Bool
  | .element n bs _ _ => n.isXml && bs.all Binding.isXml
  | _ => true

/-- What stands behind the last of a mark, and what in front of it. -/
lemma append_cons_inj {α : Type*} {q : α} {u v b c : List α} (hb : q ∉ b) (hc : q ∉ c)
    (h : u ++ q :: b = v ++ q :: c) : u = v ∧ b = c := by
  rcases List.append_eq_append_iff.mp h with ⟨w, rfl, hw⟩ | ⟨w, rfl, hw⟩
  · cases w with
    | nil => simpa using hw
    | cons x w =>
        obtain ⟨-, rfl⟩ := List.cons.inj hw
        simp at hb
  · cases w with
    | nil => simpa [eq_comm] using hw
    | cons x w =>
        obtain ⟨-, rfl⟩ := List.cons.inj hw
        simp at hc

lemma brace_not_mem {s : Text} (h : Text.IsName s) {c : Char} (hc : c = '\x7b' ∨ c = '\x7d') :
    c ∉ s := by
  intro hm
  have := h.isNameChar c hm
  rcases hc with rfl | rfl <;> exact Text.ne_of_isNameChar this rfl rfl

/-- **Expanded names** tell names apart. -/
theorem Name.expanded_inj {n m : Name} (hn : Text.IsName n.base) (hm : Text.IsName m.base) :
    n.expanded = m.expanded ↔ n.base = m.base ∧ n.uri = m.uri := by
  have hn1 := brace_not_mem hn (.inl rfl)
  have hm1 := brace_not_mem hm (.inl rfl)
  have hn2 := brace_not_mem hn (.inr rfl)
  have hm2 := brace_not_mem hm (.inr rfl)
  rw [Name.expanded, Name.expanded]
  cases hu : n.uri with
  | none =>
      cases hv : m.uri with
      | none => simp
      | some v =>
          simp only [reduceCtorEq, and_false, iff_false]
          intro h
          exact hn1 (by simp [h])
  | some u =>
      cases hv : m.uri with
      | none =>
          simp only [reduceCtorEq, and_false, iff_false]
          intro h
          exact hm1 (by simp [← h])
      | some v =>
          constructor
          · intro h
            obtain ⟨rfl, hb⟩ := append_cons_inj hn2 hm2 (List.cons.inj h).2
            exact ⟨hb, rfl⟩
          · rintro ⟨hb, huv⟩
            rw [hb, Option.some.inj huv]

/-! ### Documents -/

/-- One element stands at the top, and elements of one tag have one name. -/
structure Document.HasClearTags (d : Document) : Prop where
  whole : d.IsWhole
  names : ∀ a b m k n l, d.get? a = some m → m.name? = some n → d.get? b = some k →
    k.name? = some l → (l.expanded = n.expanded ↔ l.base = n.base ∧ l.uri = n.uri)

/-- An XML document. -/
structure Document.IsXml (d : Document) : Prop where
  whole : d.IsWhole
  pieces : ∀ p ∈ d.pieces, p.2.isXml = true

instance (d : Document) : Decidable d.IsXml :=
  decidable_of_iff (d.IsWhole ∧ ∀ p ∈ d.pieces, p.2.isXml = true)
    ⟨fun h => ⟨h.1, h.2⟩, fun h => ⟨h.whole, h.pieces⟩⟩

namespace Document.IsXml

variable {d : Document}

lemma isXml_of_get? (h : d.IsXml) {a : Address} {m : Markup} (hm : d.get? a = some m) :
    m.isXml = true :=
  h.pieces (a, m) (mem_pieces.mpr hm)

/-- The names of elements are XML names. -/
lemma isXml_of_name? (h : d.IsXml) {a : Address} {m : Markup} (hm : d.get? a = some m) {n : Name}
    (hn : m.name? = some n) : n.isXml = true := by
  have hx := h.isXml_of_get? hm
  cases m with
  | element k bs as cs =>
      obtain rfl : k = n := by simpa [Markup.name?] using hn
      simp only [Markup.isXml, Bool.and_eq_true] at hx
      exact hx.1
  | _ => simp [Markup.name?] at hn

/-- XML names have no braces, so that tags tell them apart. -/
lemma hasClearTags (h : d.IsXml) : d.HasClearTags where
  whole := h.whole
  names a b m k n l hm hn hk hl := by
    have h1 := h.isXml_of_name? hm hn
    have h2 := h.isXml_of_name? hk hl
    simp only [Name.isXml, Bool.and_eq_true] at h1 h2
    exact Name.expanded_inj (Text.isPathName_iff.mp h2.1) (Text.isPathName_iff.mp h1.1)

end Document.IsXml

end Locator
