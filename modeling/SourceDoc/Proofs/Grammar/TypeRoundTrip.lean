import SourceDoc.Proofs.Grammar.TypeParses
import SourceDoc.Proofs.Grammar.Written

/-!
# Types are read back from their texts

`readAll?` reads the whole of a text.  The grammar of types reads the standard form of a type that
stands in the heading of a declaration, and gives the type (`read_render_declared`), so different types
have different texts.
-/

namespace SourceDoc.Grammar

open SourceDoc.Tree SourceDoc.Grammar.Parser SourceDoc.Token

variable {α : Type}

/-! ### Whole texts -/

/-- What a parser reads from the whole of a text: nothing, if the text does not fall into tokens, or
if the parser stops or leaves tokens over. -/
def readAll? (parser : Descend → Parser α) (text : String) : Option α :=
  match ofSource (text.toList.map .char) with
  | .error _ => none
  | .ok (_, tokens) =>
    match parser (parseRule (depthBound tokens.toArray)) tokens.toArray ⟨0, 0⟩ with
    | .done value cursor => if cursor.next = tokens.length then some value else none
    | .stopped _ _ => none

theorem ahead_toArray_zero (tokens : List Token) : ahead tokens.toArray 0 = tokens.map toLexeme := by
  rw [ahead, List.drop_zero]

/-- A text is read as a whole, if a parser reads the tokens that it is written with. -/
theorem readAll?_eq_some {parser : Descend → Parser α} {text : String} {lexemes : List Lexeme}
    {value : α} {after : List Lexeme → Prop} (htext : Fronts text lexemes)
    (hparses : ∀ depth, lexemes.length ≤ depth →
      Parses (parser (parseRule depth)) lexemes value after) (hafter : after []) :
    readAll? parser text = some value := by
  obtain ⟨tokens, hsource, hlexemes⟩ := htext.spells.ofSource
  have hlength : lexemes.length = tokens.length := by rw [← hlexemes, List.length_map]
  have hdepth : lexemes.length ≤ depthBound tokens.toArray := by
    rw [hlength, depthBound, List.size_toArray]
    omega
  have hahead : ahead tokens.toArray 0 = lexemes ++ [] := by
    rw [ahead_toArray_zero, hlexemes, List.append_nil]
  have hrun := hparses _ hdepth tokens.toArray 0 0 [] hahead hafter
  rw [readAll?, hsource]
  simp only [hrun, Nat.zero_add, hlength, if_true]

theorem notNext_nil (texts : List String) : NotNext texts [] := fun _ h => nomatch h

end SourceDoc.Grammar

namespace SourceDoc.Tree

/-! ### Types in headings -/

/-- The types of fields, parameters and results, and the type that a class extends. -/
def Body.plainTypes : Body → List TypeRef
  | .type kind _ _ parents _ _ _ => if kind = .classType then parents else []
  | .field t _ => [t]
  | .method result callable => result.toList ++ callable.parameters.map (·.type)
  | .constructor callable => callable.parameters.map (·.type)

/-- The types that an interface extends and that a type implements. -/
def Body.listedTypes : Body → List TypeRef
  | .type kind _ _ parents interfaces _ _ =>
    (if kind = .classType then [] else parents) ++ interfaces
  | _ => []

/-- A type stands in the heading of a declaration of a source. -/
def IsDeclaredIn (code : WideString) (t : TypeRef) : Prop :=
  ∃ src tree, parseTree code = .ok (src, tree) ∧
    ∃ d ∈ Declaration.allOf tree.types, t ∈ d.body.plainTypes ++ d.body.listedTypes

theorem Body.IsWritten.listed {body : Body} (h : body.IsWritten) :
    ∀ t ∈ body.listedTypes, t.IsWritten ∧ t.IsObject := by
  intro t ht
  cases body with
  | type kind name typeParameters parents interfaces members extent =>
    rw [Body.listedTypes, List.mem_append] at ht
    obtain ⟨-, hparents, hinterfaces⟩ := h
    rcases ht with ht | ht
    · by_cases hkind : kind = .classType
      · rw [if_pos hkind] at ht
        cases ht
      · rw [if_neg hkind] at ht
        exact ⟨(hparents t ht).1, (hparents t ht).2 hkind⟩
    · exact hinterfaces t ht
  | field => cases ht
  | method => cases ht
  | constructor => cases ht

theorem Callable.IsWritten.types {callable : Callable} (h : callable.IsWritten) :
    ∀ t ∈ callable.parameters.map (·.type), t.IsWritten := by
  intro t ht
  obtain ⟨p, hp, rfl⟩ := List.mem_map.1 ht
  exact (h.parameters p hp).1

theorem Body.IsWritten.plain {body : Body} (h : body.IsWritten) :
    ∀ t ∈ body.plainTypes, t.IsWritten := by
  intro t ht
  cases body with
  | type kind name typeParameters parents interfaces members extent =>
    rw [Body.plainTypes] at ht
    by_cases hkind : kind = .classType
    · rw [if_pos hkind] at ht
      exact (h.2.1 t ht).1
    · rw [if_neg hkind] at ht
      cases ht
  | field =>
    obtain rfl := List.mem_singleton.1 ht
    exact h
  | method result callable =>
    rcases List.mem_append.1 ht with ht | ht
    · exact h.1 t (Option.mem_toList.1 ht)
    · exact h.2.types t ht
  | constructor callable => exact Callable.IsWritten.types h t ht

/-- The types in the headings of a source are made of words. -/
theorem IsDeclaredIn.isWritten {code : WideString} {t : TypeRef} (h : IsDeclaredIn code t) :
    t.IsWritten := by
  obtain ⟨src, tree, hparse, d, hd, ht⟩ := h
  have hwritten := (Grammar.areWrittenThrough_of_parseTree hparse d hd).2
  rcases List.mem_append.1 ht with ht | ht
  · exact hwritten.plain t ht
  · exact (hwritten.listed t ht).1

end SourceDoc.Tree

namespace SourceDoc.Grammar

open SourceDoc.Tree SourceDoc.Grammar.Parser SourceDoc.Token

theorem readAll?_type {t : TypeRef} (h : t.IsWritten) : readAll? type t.render = some t :=
  readAll?_eq_some (t.fronts_render h) (fun _ hdepth => parses_type h hdepth) (notNext_nil _)

theorem readAll?_typeList {t : TypeRef} (h : t.IsWritten) (hobject : t.IsObject) :
    readAll? typeList t.render = some [t] := by
  have hone : [(.separator, ",")].intercalate ([t].map TypeRef.lexemes) = t.lexemes := by
    rw [List.map_singleton, List.intercalate_singleton]
  refine readAll?_eq_some (t.fronts_render h) (fun depth hdepth => ?_)
    (notNext_nil ("," :: typeGoesOn))
  rw [← hone] at hdepth ⊢
  exact parses_typeList (List.cons_ne_nil t []) (List.forall_mem_singleton.2 ⟨h, hobject⟩) hdepth

/-- Types that are made of words and have the same text are the same. -/
theorem eq_of_render_eq {t u : TypeRef} (ht : t.IsWritten) (hu : u.IsWritten)
    (h : t.render = u.render) : t = u := by
  have hread := readAll?_type ht
  rw [h, readAll?_type hu] at hread
  exact (Option.some.inj hread).symm

/-- **The text of a type is read as the type.**  Whatever type stands in the heading of a declaration,
the grammar of types reads its standard form to the end and gives the same type; so does the grammar
of lists of types, for a type that stands in one.  Two types of headings with one text are one type,
even if they come from different sources. -/
theorem read_render_declared {code : WideString} {src : TokenText} {tree : CompilationUnit}
    (h : parseTree code = .ok (src, tree)) {d : Declaration}
    (hd : d ∈ Declaration.allOf tree.types) :
    (∀ t ∈ d.body.plainTypes, readAll? type t.render = some t) ∧
    (∀ t ∈ d.body.listedTypes,
      readAll? type t.render = some t ∧ readAll? typeList t.render = some [t]) ∧
    ∀ t ∈ d.body.plainTypes ++ d.body.listedTypes, ∀ code' u, IsDeclaredIn code' u →
      t.render = u.render → t = u := by
  have hwritten := (areWrittenThrough_of_parseTree h d hd).2
  refine ⟨fun t ht => readAll?_type (hwritten.plain t ht), fun t ht => ?_, ?_⟩
  · obtain ⟨ht, hobject⟩ := hwritten.listed t ht
    exact ⟨readAll?_type ht, readAll?_typeList ht hobject⟩
  · intro t ht code' u hu
    have hdeclared : IsDeclaredIn code t := ⟨src, tree, h, d, hd, ht⟩
    exact eq_of_render_eq hdeclared.isWritten hu.isWritten

/-- Types with arguments within arguments, bounds and dimensions. -/
theorem read_render_declared_nested :
    ∃ src tree d, parseTree
        "class A extends B< ? extends C [ ]>.D<?> implements I<M<int[][],?super K>>,J\x7b\x7d" =
          .ok (src, tree) ∧
      d ∈ Declaration.allOf tree.types ∧
      d.body.plainTypes.map TypeRef.render = ["B<? extends C[]>.D<?>"] ∧
      d.body.listedTypes.map TypeRef.render = ["I<M<int[][], ? super K>>", "J"] ∧
      (∀ t ∈ d.body.plainTypes, readAll? type t.render = some t) ∧
      ∀ t ∈ d.body.listedTypes, readAll? typeList t.render = some [t] := by
  obtain ⟨src, tree, d, hparse, hd, htest⟩ := exists_of_declaration? (n := 0)
    "class A extends B< ? extends C [ ]>.D<?> implements I<M<int[][],?super K>>,J\x7b\x7d"
    (fun _ d => d.body.plainTypes.map TypeRef.render = ["B<? extends C[]>.D<?>"] &&
      d.body.listedTypes.map TypeRef.render = ["I<M<int[][], ? super K>>", "J"])
    (by decide +kernel)
  rw [Bool.and_eq_true, decide_eq_true_eq, decide_eq_true_eq] at htest
  obtain ⟨hplain, hlisted, -⟩ := read_render_declared hparse hd
  exact ⟨src, tree, d, hparse, hd, htest.1, htest.2, hplain, fun t ht => (hlisted t ht).2⟩

end SourceDoc.Grammar
