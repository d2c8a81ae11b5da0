import SourceDoc.Model.Signature
import SourceDoc.Proofs.Grammar.TypeRoundTrip
import SourceDoc.Proofs.Node.Methods

/-!
# Signatures are read back as methods

The signature of a method node is the standard form of a heading that was read (`exists_heading`,
`signature_eq_text`).  In the braces of a class it is read again as a method with the same modifiers,
type parameters, result, name, parameters and thrown types, so that the signature of that method is the
same (`signature_reread`).
-/

namespace SourceDoc

open SourceDoc.Tree SourceDoc.TokenText SourceDoc.Grammar SourceDoc.Grammar.Parser SourceDoc.Token

/-! ### Sets of names -/

section
variable {α : Type} [DecidableEq α] [LT α] [DecidableLT α]

theorem NameSet.mem_insert {name other : α} {names : NameSet α} :
    other ∈ NameSet.insert name names ↔ other = name ∨ other ∈ names := by
  induction names with
  | nil => simp [NameSet.insert]
  | cons first rest ih =>
    rw [NameSet.insert]
    split
    · exact List.mem_cons
    · split
      · rename_i heq
        simp [heq]
      · simp only [List.mem_cons, ih, or_left_comm]

theorem NameSet.mem_ofList {name : α} {names : List α} :
    name ∈ NameSet.ofList names ↔ name ∈ names := by
  induction names with
  | nil => rfl
  | cons first rest ih =>
    show name ∈ NameSet.insert first (NameSet.ofList rest) ↔ _
    rw [NameSet.mem_insert, ih, List.mem_cons]

variable [LE α] [Std.IsLinearOrder α] [Std.LawfulOrderLT α]

theorem NameSet.pairwise_insert (name : α) {names : NameSet α} (h : names.Pairwise (· < ·)) :
    (NameSet.insert name names).Pairwise (· < ·) := by
  induction names with
  | nil => exact List.pairwise_singleton _ name
  | cons first rest ih =>
    obtain ⟨hfirst, hrest⟩ := List.pairwise_cons.1 h
    rw [NameSet.insert]
    split
    · rename_i hlt
      refine List.pairwise_cons.2 ⟨fun other hother => ?_, h⟩
      rcases List.mem_cons.1 hother with rfl | hother
      · exact hlt
      · exact Std.lt_trans hlt (hfirst other hother)
    · split
      · exact h
      · rename_i hnot hne
        refine List.pairwise_cons.2 ⟨fun other hother => ?_, ih hrest⟩
        rcases NameSet.mem_insert.1 hother with rfl | hother
        · exact Std.lt_of_le_of_ne (Std.not_lt.1 hnot) (Ne.symm hne)
        · exact hfirst other hother

theorem NameSet.pairwise_ofList (names : List α) : (NameSet.ofList names).Pairwise (· < ·) := by
  induction names with
  | nil => exact .nil
  | cons first rest ih => exact NameSet.pairwise_insert first ih

/-- **A set of names is told by its members.** -/
theorem NameSet.ofList_eq {names others : List α} (h : ∀ name, name ∈ names ↔ name ∈ others) :
    NameSet.ofList names = NameSet.ofList others := by
  have hnames := NameSet.pairwise_ofList names
  have hothers := NameSet.pairwise_ofList others
  have hperm : (NameSet.ofList names).Perm (NameSet.ofList others) := by
    rw [List.perm_ext_iff_of_nodup (hnames.imp fun hlt => Std.ne_of_lt hlt)
      (hothers.imp fun hlt => Std.ne_of_lt hlt)]
    intro name
    rw [NameSet.mem_ofList, NameSet.mem_ofList, h]
  refine hperm.eq_of_pairwise (fun a b _ _ hab hba => ?_) hnames hothers
  exact absurd (Std.lt_trans hab hba) Std.lt_irrefl

end

theorem mem_orderedModifiers {modifiers : NameSet String} {m : String} :
    m ∈ orderedModifiers modifiers ↔ m ∈ modifiers := by
  rw [orderedModifiers, List.mem_append, List.mem_filter, List.mem_filter, List.contains_iff_mem]
  by_cases hm : m ∈ modifierOrder
  · simp [hm]
  · simp [hm]

/-- Modifiers in the order in which they are written are the same set. -/
theorem ofList_orderedModifiers (modifiers : List String) :
    NameSet.ofList (orderedModifiers (NameSet.ofList modifiers)) = NameSet.ofList modifiers :=
  NameSet.ofList_eq fun m => by rw [mem_orderedModifiers, NameSet.mem_ofList]

/-! ### Signatures as texts of headings -/

theorem parameterText_eq {p : Parameter} {node : SourceNode} (h : p.Tells node) :
    parameterText node = p.render := by
  have hfinal : node.modifiers.contains "final" = p.isFinal := by
    rw [h.modifiers]
    cases p.isFinal with
    | true => rfl
    | false => rfl
  rw [parameterText, Parameter.render, hfinal, h.typeText, h.varargs, h.name, Option.getD_some]

theorem map_parameterText {ps : List Parameter} {nodes : List SourceNode}
    (h : List.Forall₂ Parameter.Tells ps nodes) :
    (nodes.filter (·.kind == .parameter)).map parameterText = ps.map Parameter.render := by
  induction h with
  | nil => rfl
  | cons hhead _ ih =>
    rw [List.filter_cons_of_pos (by rw [hhead.kind]; rfl), List.map_cons, List.map_cons, ih,
      parameterText_eq hhead]

theorem returnType_eq {h : Heading} (hh : h.IsWritten) {node : SourceNode} (ht : h.Tells node) :
    node.returnType = resultText h.result := by
  obtain ⟨c, rest, hchars, -⟩ := (fronts_result hh.result).1
  have hne : (resultText h.result).isEmpty = false := by
    rw [Bool.eq_false_iff, Ne, String.isEmpty_iff]
    intro hempty
    rw [hempty] at hchars
    cases hchars
  rw [SourceNode.returnType, ht.typeText, Option.filter_some, hne]
  rfl

/-- **The signature of a method is the text of its heading**, if that has the modifiers in the order in
which they are written. -/
theorem signature_eq_text {h : Heading} (hh : h.IsWritten) {node : SourceNode} (ht : h.Tells node)
    (hmodifiers : h.modifiers = orderedModifiers node.modifiers) : signature node = h.text := by
  have hgenerics : (genericParts h.typeParameters).map Prod.fst =
      if h.typeParameters.isEmpty then []
      else ["<" ++ ", ".intercalate h.typeParameters ++ ">"] := by
    rw [genericParts]
    split
    · rfl
    · rfl
  have hmap : (h.modifiers.map fun m => (m, [((.modifier, m) : Lexeme)])).map Prod.fst =
      orderedModifiers node.modifiers := by
    rw [List.map_map, hmodifiers]
    exact List.map_id _
  have hparts : h.parts.map Prod.fst = orderedModifiers node.modifiers ++
      (if h.typeParameters.isEmpty then []
        else ["<" ++ ", ".intercalate h.typeParameters ++ ">"]) ++
      [resultText h.result,
        h.name ++ "(" ++ ", ".intercalate (h.parameters.map Parameter.render) ++ ")"] := by
    rw [Heading.parts, List.map_append, List.map_append, hmap, hgenerics]
    rfl
  have hthrows : throwsText h.thrown =
      if node.throws.isEmpty then "" else " throws " ++ ", ".intercalate node.throws := by
    rw [throwsText, ht.throws, List.isEmpty_map]
  rw [Heading.text, hparts, hthrows, signature, SourceNode.childrenOf,
    map_parameterText ht.parameters, returnType_eq hh ht, ht.typeParameters, ht.name]

/-- The names of the types that a method may throw. -/
theorem exists_thrown {throws : List String} (h : ∀ n ∈ throws, IsQualified n) :
    ∃ thrown : List (List String), throws = thrown.map (".".intercalate ·) ∧
      ∀ names ∈ thrown, names ≠ [] ∧ ∀ n ∈ names, IsWordOf .identifier n := by
  induction throws with
  | nil => exact ⟨[], rfl, nofun⟩
  | cons n throws ih =>
    obtain ⟨thrown, hthrown, hall⟩ := ih fun m hm => h m (List.mem_cons_of_mem n hm)
    obtain ⟨names, hne, hnames, rfl⟩ := h n List.mem_cons_self
    exact ⟨names :: thrown, by rw [List.map_cons, ← hthrown],
      List.forall_mem_cons.2 ⟨⟨hne, hnames⟩, hall⟩⟩

/-- **A method node shows a heading that is made of words**, with the modifiers in the order in which a
signature has them. -/
theorem exists_heading {code : WideString} {src : TokenText} {tree : CompilationUnit}
    (hparse : parseTree code = .ok (src, tree)) {nodes : List SourceNode}
    (hnodes : Declaration.nodes src tree.types = .ok nodes) {node : SourceNode}
    (hwithin : Within node nodes) (hkind : node.kind = .method) :
    ∃ h : Heading, h.IsWritten ∧ h.Tells node ∧ h.modifiers = orderedModifiers node.modifiers := by
  obtain ⟨d, hd, hnode, result, callable, hbody⟩ :=
    exists_declaration_of_within hnodes hwithin hkind
  obtain ⟨hmodifiers, hwritten⟩ := areWrittenThrough_of_parseTree hparse d hd
  rw [hbody] at hwritten
  obtain ⟨hresult, hcallable⟩ := hwritten
  obtain ⟨thrown, hthrown, hnames⟩ := exists_thrown hcallable.throws
  -- The heading has the modifiers of the node; the source may have them in another order.
  have htells : Heading.Tells ⟨orderedModifiers (NameSet.ofList d.header.modifiers),
      callable.typeParameters, result, callable.name, callable.parameters, thrown⟩ node :=
    Heading.tells_of_node hnode hbody (ofList_orderedModifiers d.header.modifiers).symm rfl rfl
      hthrown rfl
  have hset := htells.modifiers.trans (ofList_orderedModifiers d.header.modifiers)
  refine ⟨_, ⟨fun m hm => ?_, hcallable.typeParameters, hresult, hcallable.name,
    hcallable.parameters, hcallable.varargs, hnames⟩, htells, by rw [hset]⟩
  exact hmodifiers m (NameSet.mem_ofList.1 (mem_orderedModifiers.1 hm))

/-! ### A class around a heading -/

/-- A class whose only member is written as this text and a semicolon. -/
def classAround (text : String) : String := "class X \x7b " ++ text ++ "; \x7d"

theorem fronts_classAround {h : Heading} (hh : h.IsWritten) :
    Fronts (classAround h.text) (classLexemes "X" h) := by
  have hclass : IsWordOf .keyword "class" := isWordOf_of_all (by decide) (by decide) (by decide)
  have hname : IsWordOf .identifier "X" := isWordOf_of_all (by decide) (by decide) (by decide)
  -- The text is put together from its end, since what follows a word decides where the word ends.
  have hclose : Fronts (" " ++ "\x7d") [(.separator, closeBrace)] :=
    (fronts_mark (by decide)).space ⟨'\x7d', [], rfl, by decide⟩
  have hmember := h.fronts_text hh |>.append
    (hclose.mark (show (.separator, ";") ∈ headingMarks by decide)) ⟨';', _, rfl, by decide⟩
  have hbody := (hmember.space ((h.begins_text hh).append _)).mark
    (show (.separator, openBrace) ∈ headingMarks by decide)
  have hnamed := fronts_wordSpace hbody hname (Begins.append ⟨'\x7b', [], rfl, by decide⟩ _)
  have hall := fronts_wordSpace hnamed hclass (Begins.append ⟨'X', [], rfl, by decide⟩ _)
  have htext : classAround h.text = "class" ++ (" " ++ ("X" ++ (" " ++ (openBrace ++
      (" " ++ (h.text ++ (";" ++ (" " ++ "\x7d")))))))) := by
    rw [classAround, ← String.toList_inj]
    simp [openBrace]
  have hlexemes : h.lexemes ++ [(.separator, ";")] ++ [(.separator, closeBrace)] =
      h.lexemes ++ [((.separator, ";") : Lexeme), (.separator, closeBrace)] := by
    rw [List.append_assoc, List.singleton_append]
  rw [htext, classLexemes, hlexemes]
  exact hall

/-- The height of braces is the number of opening braces, less that of closing ones. -/
theorem height_eq_count (tokens : List Token) (i : Nat) :
    height (.ofOpener openBrace) tokens.toArray i =
      ((tokens.map (·.value)).take i).count openBrace -
        ((tokens.map (·.value)).take i).count closeBrace := by
  have hfold (ts : List Token) (start : Int) :
      ts.foldl (fun h t => h + (Gauge.ofOpener openBrace).weight t.value) start =
        start + ((ts.map (·.value)).count openBrace - (ts.map (·.value)).count closeBrace) := by
    induction ts generalizing start with
    | nil => simp
    | cons t ts ih =>
      have hne : openBrace ≠ closeBrace := by decide
      rw [List.foldl_cons, ih, weight_ofOpener (show (openBrace, closeBrace) ∈ brackets by decide),
        List.map_cons, List.count_cons, List.count_cons]
      simp only [beq_iff_eq]
      by_cases hopen : t.value = openBrace
      · rw [hopen, if_pos rfl, if_pos rfl, if_neg hne]
        omega
      · rw [if_neg hopen, if_neg hopen]
        split
        · omega
        · omega
  rw [height, ← List.map_take, hfold, Int.zero_add]

/-- The only brace is closed, if a closing one comes last. -/
theorem not_unclosed_of_single {tokens : List Token} {front : List String}
    (htexts : tokens.map (·.value) = front ++ [closeBrace]) (hopen : front.count openBrace = 1)
    (hclose : closeBrace ∉ front) {i : Nat} (hstands : Stands tokens.toArray i openBrace) :
    ¬ Unclosed tokens.toArray i := by
  rintro ⟨t, ht, -, hhigh⟩
  obtain ⟨u, hu, hvalue⟩ := hstands
  obtain rfl := Option.some.inj (ht.symm.trans hu)
  have hsize : i < tokens.length := (Array.getElem?_eq_some_iff.1 ht).1
  have hlength : tokens.length = front.length + 1 := by
    rw [← List.length_map (·.value), htexts, List.length_append, List.length_singleton]
  have htake : (tokens.map (·.value)).take i = front.take i := by
    rw [htexts, List.take_append_of_le_length (by omega)]
  have hall : (tokens.map (·.value)).take tokens.length = front ++ [closeBrace] := by
    rw [← htexts, List.take_of_length_le (by rw [List.length_map])]
  have hend := hhigh tokens.length hsize le_rfl
  rw [hvalue, height_eq_count, height_eq_count, htake, hall] at hend
  -- The height is zero at the end, and nowhere less.
  have hbefore : (front.take i).count closeBrace = 0 :=
    List.count_eq_zero.2 fun hmem => hclose (List.mem_of_mem_take hmem)
  have hnone : front.count closeBrace = 0 := List.count_eq_zero.2 hclose
  have hother : [closeBrace].count openBrace = 0 := by decide
  have hlast : [closeBrace].count closeBrace = 1 := by decide
  rw [List.count_append, List.count_append, hopen, hnone, hother, hlast, hbefore] at hend
  omega

/-- The brace of a class around a heading is closed. -/
theorem not_unclosed_classLexemes {h : Heading} (hh : h.IsWritten) {tokens : List Token}
    (hlexemes : tokens.map toLexeme = classLexemes "X" h) {i : Nat}
    (hstands : Stands tokens.toArray i openBrace) : ¬ Unclosed tokens.toArray i := by
  have hfences : ∀ v ∈ [openBrace, closeBrace], v ∉ h.lexemes.map Prod.snd := by
    intro v hv hmem
    obtain ⟨l, hl, rfl⟩ := List.mem_map.1 hmem
    exact notMem_fences hh l hl (List.mem_cons_of_mem _ hv)
  have htexts : tokens.map (·.value) =
      ["class", "X", openBrace] ++ h.lexemes.map Prod.snd ++ [";"] ++ [closeBrace] := by
    have hmap := congrArg (List.map Prod.snd) hlexemes
    rw [List.map_map, classLexemes] at hmap
    simpa [Function.comp_def, toLexeme] using hmap
  apply not_unclosed_of_single htexts
  · have hnone := List.count_eq_zero.2 (hfences openBrace (by decide))
    rw [List.count_append, List.count_append, hnone]
    decide
  · rw [List.mem_append, List.mem_append, not_or, not_or]
    exact ⟨⟨by decide, hfences closeBrace (by decide)⟩, by decide⟩
  · exact hstands

/-! ### Loading the class -/

section
variable {h : Heading} (hh : h.IsWritten)
include hh

/-- The class around a heading is parsed. -/
theorem exists_parseTree_classAround : ∃ src tree e, parseTree (classAround h.text) = .ok (src, tree) ∧
    src.tokens.toList.map toLexeme = classLexemes "X" h ∧ tree.types = [e] ∧
    Fronted [] (DeclaresClass "X" h) e := by
  obtain ⟨tokens, hsource, hlexemes⟩ := (fronts_classAround hh).spells.ofSource
  obtain ⟨tree, hunit, e, htypes, hfronted⟩ := exists_parseUnit hh "X"
    ((ahead_toArray_zero tokens).trans hlexemes)
  have hparse : parseTree (classAround h.text) = .ok (ofTokens
      ((classAround h.text).toList.map .char) tokens
      (some ((classAround h.text).toList.map .char)), tree) := by
    rw [parseTree, WideString.ofString, hsource]
    simp only [hunit]
  exact ⟨_, tree, e, hparse, hlexemes, htypes, hfronted⟩

theorem not_endsInEscape_classAround :
    ¬ Escape.EndsInEscape (WideString.ofString (classAround h.text)).toList := by
  rintro ⟨n, hsuffix⟩
  have hplain : '\\' ∉ (classAround h.text).toList :=
    (fronts_classAround hh).spells.notMem (by decide) (by decide)
  have hmem := hsuffix.mem List.mem_cons_self
  exact hplain (by simpa [WideString.ofString] using hmem)

omit hh in
/-- Nothing in the class has annotations, and there are no fields. -/
theorem plain_of_classAround {e : Declaration} (he : Fronted [] (DeclaresClass "X" h) e) :
    ∀ d ∈ Declaration.allOf [e], d.uses = [] ∧ ∀ t ds, d.body ≠ .field t ds := by
  obtain ⟨header, body⟩ := e
  obtain ⟨-, hannotations, d, extent, hbody, hd⟩ := he
  obtain rfl : body = .type .classType "X" [] [] [] [d] extent := hbody
  obtain ⟨inner, member⟩ := d
  obtain rfl : member = h.body := hd.body
  have houter : header.annotations = [] := hannotations
  have hinner : inner.annotations = [] := hd.annotations
  have hparameters : (h.parameters.map Parameter.bare).flatMap (·.annotations) = [] := by
    simp [List.flatMap_eq_nil_iff, Parameter.bare]
  intro d hmem
  simp only [Declaration.allOf, Declaration.all, Body.nested, Heading.body, List.append_nil,
    List.mem_cons, List.not_mem_nil, or_false] at hmem
  rcases hmem with rfl | rfl
  · exact ⟨by simp [Declaration.uses, Declaration.header, Declaration.body, Body.uses, houter],
      fun _ _ hfield => by cases hfield⟩
  · refine ⟨?_, fun _ _ hfield => by cases hfield⟩
    simpa [Declaration.uses, Declaration.header, Declaration.body, Body.uses, hinner] using hparameters

/-- Its brackets are closed: apart from its brace, none is looked for. -/
theorem closes_classAround {src : TokenText} {tree : CompilationUnit} {e : Declaration}
    (hparse : parseTree (classAround h.text) = .ok (src, tree))
    (hlexemes : src.tokens.toList.map toLexeme = classLexemes "X" h) (htypes : tree.types = [e])
    (he : Fronted [] (DeclaresClass "X" h) e) : Closes src tree.types := by
  have hplain := plain_of_classAround he
  rw [← htypes] at hplain
  refine ⟨fun d hd extent hblock => ?_, fun d hd use huse => ?_, fun d hd t ds hfield => ?_⟩
  · -- The body of the class opens with the only brace there is.
    have hlayout := (houses_of_parseTree hparse d hd).lies.layout
    have hopener := (block_within hlayout hblock).1.opener
    exact not_unclosed_classLexemes hh hlexemes hopener
  · rw [(hplain d hd).1] at huse
    cases huse
  · exact absurd hfield ((hplain d hd).2 t ds)

/-- **The class around a heading is loaded**, and its only member is a method with that heading. -/
theorem ofSource_classAround (filename : Option String) :
    ∃ unit x m, SourceUnit.ofSource (classAround h.text) filename = .ok unit ∧
      unit.declarations = [x] ∧ x.kind ≠ .method ∧ x.children = [m] ∧ h.Tells m := by
  obtain ⟨src, tree, e, hparse, hlexemes, htypes, he⟩ := exists_parseTree_classAround hh
  have hcloses := closes_classAround hh hparse hlexemes htypes he
  obtain ⟨nodes, hnodes⟩ :=
    exists_nodes_of_closes hparse hcloses (not_endsInEscape_classAround hh)
  have hloaded : ∃ unit, SourceUnit.ofSource (classAround h.text) filename = .ok unit ∧
      unit.declarations = nodes := by
    rw [SourceUnit.ofSource, hparse]
    simp only [Except.mapError, bind, Except.bind, hnodes]
    exact ⟨_, rfl, rfl⟩
  obtain ⟨unit, hunit, rfl⟩ := hloaded
  obtain ⟨x, hx, hdeclarations⟩ := eq_singleton_of_nodes (htypes ▸ hnodes)
  obtain ⟨header, body⟩ := e
  obtain ⟨-, -, d, extent, hbody, hd⟩ := he
  obtain rfl : body = .type .classType "X" [] [] [] [d] extent := hbody
  rw [Declaration.node] at hx
  obtain ⟨hkind, hmembers⟩ := nodes_of_typeNode hx
  obtain ⟨m, hm, hchildren⟩ := eq_singleton_of_nodes hmembers
  have hbare : (h.parameters.map Parameter.bare).map Parameter.bare =
      h.parameters.map Parameter.bare := by
    rw [List.map_map]
    rfl
  have htells : h.Tells m := Heading.tells_of_node hm hd.body (by rw [hd.modifiers]) rfl rfl rfl hbare
  exact ⟨unit, x, m, hunit, hdeclarations, by simp [hkind], hchildren, htells⟩

end

/-! ### Signatures -/

/-- **A signature is read back as the method that it was written for.**  Put into a class, the signature
of any method node of any source is read as a method with the same modifiers, type parameters, result,
name, thrown types and parameters.  It is the only method, and its signature is the same. -/
theorem signature_reread {code : WideString} {filename : Option String} {unit : SourceUnit}
    (hunit : SourceUnit.ofSource code filename = .ok unit) {node : SourceNode}
    (hwithin : Within node unit.declarations) (hkind : node.kind = .method)
    (filename' : Option String) :
    ∃ again x m,
      SourceUnit.ofSource ("class X \x7b " ++ signature node ++ "; \x7d") filename' = .ok again ∧
      again.declarations = [x] ∧ x.children = [m] ∧
      (∀ other, Within other again.declarations ∧ other.kind = .method ↔ other = m) ∧
      SameHeading m node ∧ signature m = signature node := by
  obtain ⟨⟨src, tree⟩, hparse, hunit⟩ := Except.bind_eq_ok hunit
  obtain ⟨nodes, hnodes, hunit⟩ := Except.bind_eq_ok hunit
  obtain rfl := Except.ok.inj hunit
  obtain ⟨h, hh, htells, hmodifiers⟩ :=
    exists_heading (Except.mapError_eq_ok hparse) (Except.mapError_eq_ok hnodes) hwithin hkind
  obtain ⟨again, x, m, hagain, hdeclarations, hx, hchildren, hm⟩ := ofSource_classAround hh filename'
  have hsame := hm.sameHeading htells
  have htext := signature_eq_text hh htells hmodifiers
  have htext' := signature_eq_text hh hm (by rw [hsame.modifiers, hmodifiers])
  have hsingle : ∀ other, Within other again.declarations ∧ other.kind = .method ↔ other = m := by
    intro other
    rw [hdeclarations]
    exact hm.within_iff hx hchildren
  rw [← htext, classAround, WideString.ofString_append, WideString.ofString_append] at hagain
  exact ⟨again, x, m, hagain, hdeclarations, hchildren, hsingle, hsame, htext'.trans htext.symm⟩

/-- A method in a class in an interface, whose modifiers stand in another order, with annotations,
bounds of type parameters, dimensions behind names and parameters, and a block. -/
theorem signature_reread_nested :
    ∃ unit node again x m, SourceUnit.ofSource ("interface I \x7b class C \x7b " ++
        "@A final static public <T extends U & V, W> Map<K,int [ ]> m(@B final int a[], T... b)[]" ++
        " throws x . E,F \x7b return n; \x7d \x7d \x7d") none = .ok unit ∧
      Within node unit.declarations ∧ node.kind = .method ∧
      signature node = "public static final <T, W> Map<K, int[]>[] " ++
        "m(final int[] a, T... b) throws x.E, F" ∧
      SourceUnit.ofSource ("class X \x7b " ++ signature node ++ "; \x7d") none = .ok again ∧
      again.declarations = [x] ∧ x.children = [m] ∧ SameHeading m node ∧
      signature m = signature node := by
  have hfound : ((SourceUnit.ofSource ("interface I \x7b class C \x7b " ++
      "@A final static public <T extends U & V, W> Map<K,int [ ]> m(@B final int a[], T... b)[]" ++
      " throws x . E,F \x7b return n; \x7d \x7d \x7d") none).toOption.bind fun unit =>
        unit.declarations.head?.bind fun outer => outer.children.head?.bind fun inner =>
          inner.children.head?.map fun m => (m.kind, signature m)) = some (.method,
      "public static final <T, W> Map<K, int[]>[] m(final int[] a, T... b) throws x.E, F") := by
    decide +kernel
  obtain ⟨unit, hload, hfound⟩ := Option.bind_eq_some_iff.1 hfound
  obtain ⟨outer, houter, hfound⟩ := Option.bind_eq_some_iff.1 hfound
  obtain ⟨inner, hinner, hfound⟩ := Option.bind_eq_some_iff.1 hfound
  obtain ⟨node, hnode, hfound⟩ := Option.map_eq_some_iff.1 hfound
  obtain ⟨hkind, hsignature⟩ := Prod.mk.inj hfound
  have hwithin : Within node unit.declarations :=
    .under (List.mem_of_head? houter)
      (.under (List.mem_of_head? hinner) (.here (List.mem_of_head? hnode)))
  have hunit := Except.eq_ok_of_toOption hload
  obtain ⟨again, x, m, hagain, hdeclarations, hchildren, -, hsame, heq⟩ :=
    signature_reread hunit hwithin hkind none
  exact ⟨unit, node, again, x, m, hunit, hwithin, hkind, hsignature, hagain, hdeclarations, hchildren,
    hsame, heq⟩

end SourceDoc
