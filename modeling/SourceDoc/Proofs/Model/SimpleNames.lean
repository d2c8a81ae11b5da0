import SourceDoc.Proofs.Grammar.TypeRoundTrip
import SourceDoc.Proofs.Model.Removals
import SourceDoc.Proofs.Text.PathNames
import SourceDoc.Proofs.Text.Trimmed

/-!
# Simple names of types that were read

Where angle brackets come in pairs, `dropGroups` leaves what stands outside of all of them
(`dropGroups_of_grouped`), however deep they are nested.  The type arguments in the standard form of a type
are such pairs (`TypeRef.grouped_render`), so the simple name of the form is the last name of the type
(`simpleTypeName_render_of_isReadFrom`).
-/

namespace SourceDoc

open SourceDoc.Text SourceDoc.Token

/-! ### Pairs of brackets -/

/-- A text whose angle brackets come in pairs, and what stands outside of the pairs. -/
inductive Grouped : List Char → List Char → Prop where
  | nil : Grouped [] []
  | char {c : Char} {text outside : List Char} (hopen : c ≠ '<') (hclose : c ≠ '>')
      (h : Grouped text outside) : Grouped (c :: text) (c :: outside)
  | group {inside hidden text outside : List Char} (hinside : Grouped inside hidden)
      (h : Grouped text outside) : Grouped ('<' :: (inside ++ '>' :: text)) outside

namespace Grouped

variable {text outside more outside' : List Char}

theorem append (h : Grouped text outside) (h' : Grouped more outside') :
    Grouped (text ++ more) (outside ++ outside') := by
  induction h with
  | nil => exact h'
  | char hopen hclose _ ih => exact .char hopen hclose ih
  | @group inside hidden text outside hinside _ _ ih =>
    rw [List.cons_append, List.append_assoc]
    exact .group hinside ih

/-- A text without brackets. -/
theorem of_all (h : ∀ c ∈ text, c ≠ '<' ∧ c ≠ '>') : Grouped text text := by
  induction text with
  | nil => exact .nil
  | cons c text ih =>
    obtain ⟨hc, htext⟩ := List.forall_mem_cons.1 h
    exact .char hc.1 hc.2 (ih htext)

theorem of_all_eq_true (h : text.all (fun c => c ≠ '<' ∧ c ≠ '>') = true) : Grouped text text :=
  of_all fun c hc => of_decide_eq_true (List.all_eq_true.1 h c hc)

theorem brackets (h : Grouped text outside) (inner : List Char) (hinner : Grouped inner more) :
    Grouped (text ++ '<' :: (inner ++ ['>'])) outside := by
  have happend := h.append (.group hinner .nil)
  rwa [List.append_nil] at happend

theorem of_mem_outside (h : Grouped text outside) : ∀ c ∈ outside, c ≠ '<' ∧ c ≠ '>' := by
  induction h with
  | nil =>
    intro c hc
    cases hc
  | char hopen hclose _ ih => exact List.forall_mem_cons.2 ⟨⟨hopen, hclose⟩, ih⟩
  | group _ _ _ ih => exact ih

end Grouped

/-- Pairs are removed from the inside out, the text behind them last. -/
theorem Grouped.removesPairs {text outside : List Char} (h : Grouped text outside) :
    RemovesPairs text outside := by
  induction h with
  | nil => exact .refl
  | @char c _ _ _ _ _ ih => simpa using ih.append [c] []
  | @group inside hidden text outside hinside _ ih ih' =>
    have hinner : RemovesPairs ('<' :: (inside ++ '>' :: text)) ('<' :: (hidden ++ '>' :: text)) :=
      ih.append ['<'] ('>' :: text)
    have hpair : RemovesPair ('<' :: (hidden ++ '>' :: text)) text :=
      .intro [] text hinside.of_mem_outside
    exact hinner.trans (.head hpair ih')

/-- **Nothing but what stands outside of the brackets is left.** -/
theorem dropGroups_of_grouped {text outside : List Char} (h : Grouped text outside) :
    dropGroups text = outside := by
  have hstripped : IsStripped outside :=
    isStripped_of_notMem fun hmem => (h.of_mem_outside _ hmem).1 rfl
  rw [dropGroups_eq_textOutside, h.removesPairs.eq_textOutside hstripped]

/-! ### Dimensions and qualifications -/

theorem dropDimensions_append {text : List Char} (h : '[' ∉ text) (count : Nat) :
    dropDimensions (text ++ (List.replicate count ['[', ']']).flatten) = text := by
  induction text with
  | nil =>
    induction count with
    | zero => rfl
    | succ count ih =>
      rw [List.replicate_succ]
      exact ih
  | cons c text ih =>
    obtain ⟨hc, htext⟩ := not_or.1 (mt List.mem_cons.2 h)
    rw [List.cons_append, dropDimensions, ih htext]
    rintro rest rfl
    exact absurd rfl hc

/-- Behind the last separator stands the last of the joined parts. -/
theorem getLast?_eq_afterLast {separator : Char} {parts : List (List Char)} (hne : parts ≠ [])
    (h : ∀ part ∈ parts, separator ∉ part) :
    parts.getLast? = some (afterLast separator ([separator].intercalate parts)) := by
  induction parts with
  | nil => exact absurd rfl hne
  | cons part parts ih =>
    obtain ⟨hpart, hparts⟩ := List.forall_mem_cons.1 h
    cases parts with
    | nil => rw [List.intercalate_singleton, afterLast_of_notMem hpart, List.getLast?_singleton]
    | cons next parts =>
      rw [List.intercalate_cons_cons, List.append_assoc, List.singleton_append,
        afterLast_append_cons, List.getLast?_cons_cons, ih (List.cons_ne_nil next parts) hparts]

/-! ### Characters of names -/

/-- The characters of a name are no brackets, points or blanks. -/
theorem of_isIdentifierPart {c : Char} (h : isIdentifierPart c = true) :
    (c ≠ '<' ∧ c ≠ '>') ∧ c ≠ '[' ∧ c ≠ '.' ∧ isBlank c = false := by
  have hblanks : ∀ n ∈ blankCodes, isIdentifierPart (Char.ofNat n) = false := by decide +kernel
  have hnot {d : Char} (hd : isIdentifierPart d = false) : c ≠ d := by
    rintro rfl
    rw [hd] at h
    cases h
  exact ⟨⟨hnot (by decide +kernel), hnot (by decide +kernel)⟩, hnot (by decide +kernel),
    hnot (by decide +kernel), isBlankChar_eq_false hblanks h⟩

/-- The names of a type: that of a basic type, or those of a chain. -/
def TypeRef.names : TypeRef → List String
  | .basic name _ => [name]
  | .named segments _ => segments.map Segment.name

/-- The number of dimensions of a type. -/
def TypeRef.dimensions : TypeRef → Nat
  | .basic _ count => count
  | .named _ count => count

theorem TypeRef.IsWritten.names {t : TypeRef} (h : t.IsWritten) :
    t.names ≠ [] ∧ ∀ name ∈ t.names, IsWord name := by
  cases t with
  | basic name count =>
    exact ⟨List.cons_ne_nil name [], List.forall_mem_singleton.2 (IsWordOf.isWord h)⟩
  | named segments count =>
    refine ⟨fun hnil => h.1 (List.map_eq_nil_iff.1 hnil), fun name hname => ?_⟩
    obtain ⟨⟨name, arguments⟩, hs, rfl⟩ := List.mem_map.1 hname
    exact (Segment.areWritten_iff.1 h.2 _ hs).1.isWord

/-- The names of a type with points between them. -/
def TypeRef.qualifiedName (t : TypeRef) : List Char :=
  ['.'].intercalate (t.names.map String.toList)

/-! ### Brackets of types -/

/-- What a type argument shows outside of brackets. -/
def TypeArgument.outline : TypeArgument → List Char
  | .wildcard => ['?']
  | .bounded bound type =>
    ("? " ++ bound.word ++ " ").toList ++
      (type.qualifiedName ++ (renderDimensions type.dimensions).toList)
  | .exact type => type.qualifiedName ++ (renderDimensions type.dimensions).toList

theorem grouped_intercalate {α : Type} {separator : String}
    (hseparator : Grouped separator.toList separator.toList) {items : List α} {text : α → String}
    {outside : α → List Char} (h : ∀ item ∈ items, Grouped (text item).toList (outside item)) :
    Grouped (separator.intercalate (items.map text)).toList
      (separator.toList.intercalate (items.map outside)) := by
  induction items with
  | nil => exact .nil
  | cons item items ih =>
    obtain ⟨hitem, hitems⟩ := List.forall_mem_cons.1 h
    cases items with
    | nil =>
      rw [List.map_singleton, List.map_singleton, String.intercalate_singleton,
        List.intercalate_singleton]
      exact hitem
    | cons next items =>
      simp only [List.map_cons] at ih ⊢
      rw [String.intercalate_cons_cons, List.intercalate_cons_cons, String.toList_append,
        String.toList_append]
      exact (hitem.append hseparator).append (ih hitems)

theorem grouped_word {word : String} (h : IsWord word) : Grouped word.toList word.toList :=
  .of_all fun c hc => (of_isIdentifierPart (h.isIdentifierPart c hc)).1

theorem grouped_renderDimensions (count : Nat) :
    Grouped (renderDimensions count).toList (renderDimensions count).toList := by
  induction count with
  | zero => exact .nil
  | succ count ih =>
    rw [renderDimensions_succ]
    simp only [String.toList_append]
    exact (Grouped.of_all_eq_true (by decide)).append ((Grouped.of_all_eq_true (by decide)).append ih)

mutual

/-- **The type arguments of a type are in pairs of brackets**, outside of which are its names. -/
theorem TypeRef.grouped_render : (t : TypeRef) → t.IsWritten →
    Grouped t.render.toList (t.qualifiedName ++ (renderDimensions t.dimensions).toList)
  | .basic name count, h => by
    rw [TypeRef.render, String.toList_append, TypeRef.qualifiedName, TypeRef.names,
      List.map_singleton, List.intercalate_singleton]
    exact (grouped_word (IsWordOf.isWord h)).append (grouped_renderDimensions count)
  | .named segments count, h => by
    rw [TypeRef.render, String.toList_append, Segment.renderAll_eq, TypeRef.qualifiedName,
      TypeRef.names, List.map_map]
    refine Grouped.append ?_ (grouped_renderDimensions count)
    exact grouped_intercalate (.of_all_eq_true (by decide)) (Segment.grouped_renderAll segments h.2)

theorem Segment.grouped_render : (s : Segment) → s.IsWritten → Grouped s.render.toList s.name.toList
  | .mk name [], h => by
    rw [Segment.render, Segment.name]
    exact grouped_word h.1.isWord
  | .mk name (first :: rest), h => by
    have harguments := TypeArgument.grouped_renderAll (first :: rest) h.2
    have hinner : Grouped (", ".intercalate ((first :: rest).map TypeArgument.render)).toList _ :=
      grouped_intercalate (.of_all_eq_true (by decide)) harguments
    have hbrackets := (grouped_word h.1.isWord).brackets _ hinner
    rw [Segment.render, Segment.name, TypeArgument.renderAll_eq]
    simpa using hbrackets

theorem Segment.grouped_renderAll : (segments : List Segment) → Segment.AreWritten segments →
    ∀ s ∈ segments, Grouped s.render.toList s.name.toList
  | [], _ => fun _ hmem => absurd hmem List.not_mem_nil
  | s :: segments, h => by
    rw [List.forall_mem_cons]
    exact ⟨Segment.grouped_render s h.1, Segment.grouped_renderAll segments h.2⟩

theorem TypeArgument.grouped_render : (a : TypeArgument) → a.IsWritten →
    Grouped a.render.toList a.outline
  | .wildcard, _ => by
    rw [TypeArgument.render, TypeArgument.outline]
    exact .of_all_eq_true (by decide)
  | .bounded bound type, h => by
    rw [TypeArgument.render, TypeArgument.outline, String.toList_append]
    refine Grouped.append ?_ (TypeRef.grouped_render type h.2)
    cases bound <;> exact .of_all_eq_true (by decide)
  | .exact type, h => by
    rw [TypeArgument.render, TypeArgument.outline]
    exact TypeRef.grouped_render type h.2

theorem TypeArgument.grouped_renderAll : (arguments : List TypeArgument) →
    TypeArgument.AreWritten arguments → ∀ a ∈ arguments, Grouped a.render.toList a.outline
  | [], _ => fun _ hmem => absurd hmem List.not_mem_nil
  | a :: arguments, h => by
    rw [List.forall_mem_cons]
    exact ⟨TypeArgument.grouped_render a h.1, TypeArgument.grouped_renderAll arguments h.2⟩

end

/-! ### Last names -/

/-- The name of a basic type, or the last name of a chain. -/
def TypeRef.lastName? (t : TypeRef) : Option String := t.names.getLast?

/-- A name with its qualification has no brackets and no blanks. -/
theorem TypeRef.IsWritten.of_mem_qualifiedName {t : TypeRef} (h : t.IsWritten) :
    ∀ c ∈ t.qualifiedName, c ≠ '[' ∧ isBlank c = false := by
  refine forall_mem_intercalate (by decide) fun part hpart c hc => ?_
  obtain ⟨name, hname, rfl⟩ := List.mem_map.1 hpart
  obtain ⟨-, hbracket, -, hblank⟩ :=
    of_isIdentifierPart ((h.names.2 name hname).isIdentifierPart c hc)
  exact ⟨hbracket, hblank⟩

theorem TypeRef.IsWritten.lastName?_eq {t : TypeRef} (h : t.IsWritten) :
    t.lastName? = some (simpleTypeName t.render) := by
  have hname := h.of_mem_qualifiedName
  have htrim : trim t.qualifiedName = t.qualifiedName :=
    trim_eq_self_iff.2 ⟨fun c hc => (hname c (List.mem_of_mem_head? hc)).2,
      fun c hc => (hname c (List.mem_of_getLast? hc)).2⟩
  have hparts : ∀ part ∈ t.names.map String.toList, '.' ∉ part := by
    intro part hpart hpoint
    obtain ⟨name, hname, rfl⟩ := List.mem_map.1 hpart
    exact (of_isIdentifierPart ((h.names.2 name hname).isIdentifierPart _ hpoint)).2.2.1 rfl
  have hlast := getLast?_eq_afterLast (mt List.map_eq_nil_iff.1 h.names.1) hparts
  rw [List.getLast?_map] at hlast
  obtain ⟨name, hlastName, hchars⟩ := Option.map_eq_some_iff.1 hlast
  rw [simpleTypeName, dropGroups_of_grouped (t.grouped_render h), renderDimensions,
    String.toList_ofList, dropDimensions_append fun hmem => (hname _ hmem).1 rfl, htrim,
    TypeRef.lastName?, hlastName, TypeRef.qualifiedName, ← hchars, String.ofList_toList]

/-- A type that the grammar gives for a source: one that its rules for types read somewhere among the
tokens, or one that stands in the heading of a declaration, with the dimensions behind the name. -/
def TypeRef.IsReadFrom (code : WideString) (t : TypeRef) : Prop :=
  Tree.IsDeclaredIn code t ∨
    ∃ data tokens depth cursor cursor', Token.ofSource code.toList = .ok (data, tokens) ∧
      (Grammar.type (Grammar.parseRule depth) tokens.toArray cursor = .done t cursor' ∨
        Grammar.objectType (Grammar.parseRule depth) tokens.toArray cursor = .done t cursor')

theorem TypeRef.IsReadFrom.isWritten {code : WideString} {t : TypeRef} (h : t.IsReadFrom code) :
    t.IsWritten := by
  rcases h with h | ⟨data, tokens, depth, cursor, cursor', hsource, h⟩
  · exact h.isWritten
  · obtain ⟨items, hreading, rfl⟩ := exists_reading_of_ofSource hsource
    have hp := Grammar.writes_parseRule
      (fun token htoken => hreading.isWordOf token (List.mem_toArray.1 htoken)) depth
    rcases h with h | h
    · exact Grammar.yields_type hp _ _ _ h
    · exact (Grammar.yields_objectType hp _ _ _ h).1

/-- **The simple name of a type is its last name.**  Whatever type is read from a source, with whatever
type arguments behind any of its names and whatever dimensions, the simple name of its standard form is
the name of the basic type or the last name of the chain, and there is one. -/
theorem simpleTypeName_render_of_isReadFrom {code : WideString} {t : TypeRef} (h : t.IsReadFrom code) :
    t.lastName? = some (simpleTypeName t.render) :=
  h.isWritten.lastName?_eq

/-- A parent whose names have type arguments with arguments of their own. -/
theorem simpleTypeName_render_entry : ∃ code t, TypeRef.IsReadFrom code t ∧
    t.render = "java.util.Map<String, List<? extends C[]>>.Entry<K.L<int[]>, ?>" ∧
      t.lastName? = some "Entry" ∧ simpleTypeName t.render = "Entry" := by
  let code := "class A extends java.util.Map<String,List<? extends C[]>>.Entry<K.L<int[]>,?>\x7b\x7d"
  obtain ⟨src, tree, d, hparse, hd, htest⟩ := Tree.exists_of_declaration? (n := 0) code
    (fun _ d => d.body.plainTypes.any fun t =>
      t.render = "java.util.Map<String, List<? extends C[]>>.Entry<K.L<int[]>, ?>" &&
        t.lastName? = some "Entry")
    (by decide +kernel)
  obtain ⟨t, ht, htest⟩ := List.any_eq_true.1 htest
  rw [Bool.and_eq_true, decide_eq_true_eq, decide_eq_true_eq] at htest
  have hread : TypeRef.IsReadFrom code t :=
    .inl ⟨src, tree, hparse, d, hd, List.mem_append_left _ ht⟩
  have hname := simpleTypeName_render_of_isReadFrom hread
  rw [htest.2] at hname
  exact ⟨code, t, hread, htest.1, htest.2, (Option.some.inj hname).symm⟩

end SourceDoc
