import SourceDoc.Proofs.Node.Alike
import SourceDoc.Proofs.Span.Cuts

/-!
# Units of decoded sources

A source with escapes and the text that it is decoded to have the same tokens, and so the same tree.
Their units differ only in the texts of the nodes: those of the first are decoded to those of the second
(`ofSource_agree_decoded`).
-/

namespace SourceDoc

open SourceDoc.Escape SourceDoc.Text SourceDoc.Token SourceDoc.Tree TokenText

/-! ### Texts without escapes -/

/-- The tokens and the syntax tree of a text in which no escapes are decoded, or the message of why there
is none. -/
def parseText (text : List WideChar) : Except WideString (TokenText × CompilationUnit) :=
  match Token.ofText text with
  | .error trouble => .error (tokenFailure (.text text trouble))
  | .ok tokens =>
    match Grammar.parseUnit tokens.toArray with
    | .error reason => .error reason.message
    | .ok tree => .ok (TokenText.ofTokens text tokens none, tree)

/-- The unit of a text that was parsed. -/
def SourceUnit.ofParsed (parsed : Except WideString (TokenText × CompilationUnit))
    (filename : Option String) (text : WideString) : Except UnitFault SourceUnit := do
  let (src, tree) ← parsed.mapError UnitFault.unparsable
  let declarations ← (Declaration.nodes src tree.types).mapError UnitFault.span
  return {
    path := (givenName filename).getD "<string>"
    package := tree.package.getD ""
    declarations
    primaryName := (givenName filename).map fileStem
    text }

/-- The unit of a text in which no escapes are decoded. -/
def SourceUnit.ofText (text : List WideChar) (filename : Option String) :
    Except UnitFault SourceUnit :=
  SourceUnit.ofParsed (parseText text) filename ⟨text⟩

theorem SourceUnit.ofSource_eq_ofParsed (code : WideString) (filename : Option String) :
    SourceUnit.ofSource code filename = SourceUnit.ofParsed (parseTree code) filename code := rfl

/-- **A source has the tree of its decoded text.**  Only its texts are cut from another source. -/
theorem parseTree_of_decode {code : WideString} {data : List WideChar}
    (h : decode code.toList = .ok data) :
    (∃ message, parseTree code = .error message ∧ parseText data = .error message) ∨
      ∃ tokens tree, Token.ofSource code.toList = .ok (data, tokens) ∧
        parseTree code = .ok (ofTokens data tokens (some code.toList), tree) ∧
        parseText data = .ok (ofTokens data tokens none, tree) := by
  simp only [parseTree, parseText, Token.ofSource, h]
  cases Token.ofText data with
  | error trouble => exact .inl ⟨_, rfl, rfl⟩
  | ok tokens =>
    simp only
    cases Grammar.parseUnit tokens.toArray with
    | error reason => exact .inl ⟨_, rfl, rfl⟩
    | ok tree => exact .inr ⟨tokens, tree, rfl, rfl, rfl⟩

/-- A source without escapes has the unit of its text. -/
theorem SourceUnit.ofSource_eq_ofText {code : WideString} (h : mentionsEscape code.toList = false)
    (filename : Option String) :
    SourceUnit.ofSource code filename = SourceUnit.ofText code.toList filename := by
  have hparse : parseTree code = parseText code.toList := by
    rcases parseTree_of_decode (spelled_self h).decode with
      ⟨message, htree, htext⟩ | ⟨tokens, tree, -, htree, htext⟩
    · rw [htree, htext]
    · have hoffsets : offsets? code.toList = none := by
        rw [offsets?, h]
        rfl
      rw [htree, htext, ofTokens, ofTokens, Option.bind_some, hoffsets]
      rfl
  rw [ofText, ofSource_eq_ofParsed, hparse]

/-! ### Texts as written -/

/-- A text as written in a source is decoded to another. -/
def Decodes (written text : WideString) : Prop :=
  decode written.toList = .ok text.toList

/-- A text as written begins with the second of two backslashes; what follows is decoded to what follows
a backslash in another. -/
def DecodesBehind (written text : WideString) : Prop :=
  ∃ source rest, written = ⟨.char '\\' :: source⟩ ∧ text = ⟨.char '\\' :: rest⟩ ∧
    decode source = .ok rest

theorem agree_slice {code data : List WideChar} (hspelled : Spelled code data)
    (tokens : List Token) {lo hi : Nat} (hlo : lo ≤ data.length) (hhi : hi ≤ data.length) :
    Except.Agree (fun written text => Decodes written text ∨
        data[lo]? = some (.char '\\') ∧ DecodesBehind written text)
      ((ofTokens data tokens (some code)).slice lo hi) ((ofTokens data tokens none).slice lo hi) := by
  have htext : (ofTokens data tokens none).slice lo hi = .ok ⟨(data.drop lo).take (hi - lo)⟩ := rfl
  rw [htext]
  cases hescape : mentionsEscape code with
  | false =>
    -- Nothing is looked up, and what is cut out has no escapes either.
    have hoffsets : (ofTokens data tokens (some code)).offsets = none := by
      show offsets? code = none
      rw [offsets?, hescape]
      rfl
    have hslice : (ofTokens data tokens (some code)).slice lo hi =
        .ok ⟨(code.drop lo).take (hi - lo)⟩ := by
      simp only [slice, sourcePlace, hoffsets]
      rfl
    have hdata : data = code :=
      Except.ok.inj (hspelled.decode.symm.trans (spelled_self hescape).decode)
    rw [hslice, hdata]
    have hpart : mentionsEscape ((code.drop lo).take (hi - lo)) = false := by
      rw [← Bool.not_eq_true, mentionsEscape_iff] at hescape ⊢
      exact fun h => hescape
        ((h.trans ( List.take_prefix _ _).isInfix).trans (List.drop_suffix _ _).isInfix)
    exact .ok (.inl (spelled_self hpart).decode)
  | true =>
    obtain ⟨a, b, ha, hb, hparts⟩ := hspelled.slice hlo hhi
    have hoffsets : (ofTokens data tokens (some code)).offsets =
        some (offsetsFrom 0 true 0 code) := by
      show offsets? code = _
      rw [offsets?_eq, hescape]
      rfl
    have hslice : (ofTokens data tokens (some code)).slice lo hi =
        .ok ⟨(code.drop a).take (b - a)⟩ := by
      simp only [slice, sourcePlace, hoffsets, ha, hb]
      rfl
    rw [hslice]
    refine .ok ?_
    rcases hparts with hspelled | ⟨hback, source, rest, hsource, hrest, hspelled⟩
    · exact .inl hspelled.decode
    · exact .inr ⟨hback, source, rest, by rw [hsource], by rw [hrest], hspelled.decode⟩

/-! ### Units -/

theorem agree_ofParsed {R : WideString → WideString → Prop} {src src' : TokenText}
    {tree : CompilationUnit} (filename : Option String) (text text' : WideString)
    (h : Except.Agree (List.Forall₂ (SourceNode.Alike R)) (Declaration.nodes src tree.types)
      (Declaration.nodes src' tree.types)) :
    Except.Agree (SourceUnit.Alike R) (SourceUnit.ofParsed (.ok (src, tree)) filename text)
      (SourceUnit.ofParsed (.ok (src', tree)) filename text') :=
  (h.mapError UnitFault.span).bind fun hnodes => .ok ⟨rfl, rfl, hnodes, rfl, rfl⟩

theorem decodes_empty : Decodes "" "" := rfl

/-- **A source and its decoded text have alike units.**  Both have one or none, and those that they have
differ only in their texts.  Each text of the first is decoded to that of the second, unless it begins
with a backslash, as it may if it is not cut out at its tokens; then what follows the backslash is.  If
no token holds a line feed before a token on a later line, all texts are decoded. -/
theorem ofSource_agree_decoded {code : WideString} {data : List WideChar}
    (hregular : Regular true code.toList) (hdecoded : decode code.toList = .ok data)
    (hplain : ¬ ShowsEscape data) (filename : Option String) :
    Except.Agree (SourceUnit.Alike fun written text => Decodes written text ∨ DecodesBehind written text)
      (SourceUnit.ofSource code filename) (SourceUnit.ofSource ⟨data⟩ filename) ∧
    (∀ tokens, Token.ofSource code.toList = .ok (data, tokens) → Unbroken tokens →
      Except.Agree (SourceUnit.Alike Decodes) (SourceUnit.ofSource code filename)
        (SourceUnit.ofSource ⟨data⟩ filename)) := by
  have hspelled := spelled_of_regular hregular hdecoded hplain
  have hmentions : mentionsEscape (⟨data⟩ : WideString).toList = false := by
    rw [← Bool.not_eq_true, mentionsEscape_iff]
    exact hplain
  rw [SourceUnit.ofSource_eq_ofText hmentions, SourceUnit.ofSource_eq_ofParsed,
    SourceUnit.ofText]
  rcases parseTree_of_decode hdecoded with ⟨message, htree, htext⟩ | ⟨tokens, tree, htokens, htree, htext⟩
  · rw [htree, htext]
    exact ⟨.error _, fun _ _ _ => .error _⟩
  rw [htree, htext]
  have hplaced := placed_of_ofSource htokens (some code.toList)
  have hslice := fun {first last : Int} {lo hi : Nat}
      (hplaces : (ofTokens data tokens (some code.toList)).places first last = .ok (lo, hi)) =>
    agree_slice hspelled tokens (le_of_places hplaced hplaces).1 (le_of_places hplaced hplaces).2
  constructor
  · refine agree_ofParsed filename _ _ (agree_nodes (.inl decodes_empty) ?_ _)
    refine agree_cut (.inl decodes_empty) fun hplaces => ?_
    exact (hslice hplaces).mono fun h => h.imp_right And.right
  · intro tokens' htokens' hunbroken
    obtain rfl : tokens' = tokens :=
      (Prod.mk.inj (Except.ok.inj (htokens'.symm.trans htokens))).2
    obtain ⟨items, hreading, rfl⟩ := exists_reading_of_ofSource htokens
    refine agree_ofParsed filename _ _ (agree_nodes decodes_empty ?_ _)
    refine agree_cut decodes_empty fun hplaces => (hslice hplaces).mono fun h => ?_
    refine h.resolve_right fun hback => ?_
    refine ne_backslash_of_places (hreading.found _ hunbroken) (fun t ht => ?_) hplaces hback.1
    exact hreading.head_text t (List.mem_toArray.1 ht)

/-! ### Two sources -/

/-- An enumeration with a brace that is written as an escape. -/
def escapedBrace : WideString := "enum A\\u007b\x7d"

/-- The same without the escape. -/
def plainBrace : WideString := "enum A\x7b\x7d"

/-- A brace that is written as an escape is one in the text of the type. -/
theorem ofSource_agree_decoded_escapedBrace :
    Regular true escapedBrace.toList ∧ decode escapedBrace.toList = .ok plainBrace.toList ∧
    ¬ ShowsEscape plainBrace.toList ∧
    ∃ unit unit', SourceUnit.ofSource escapedBrace none = .ok unit ∧
      SourceUnit.ofSource plainBrace none = .ok unit' ∧
      unit.declarations.map (·.text) = [escapedBrace] ∧
      unit'.declarations.map (·.text) = [plainBrace] ∧ unit.Alike Decodes unit' := by
  have hregular : Regular true escapedBrace.toList := by
    have hsplit : escapedBrace.toList = WideString.toList "enum A" ++ .char '\\' ::
        (List.replicate 1 (.char 'u') ++ (WideString.toList "007b" ++ WideString.toList "\x7d")) := by
      decide +kernel
    rw [hsplit]
    exact (Regular.append (by decide +kernel) (.escape rfl rfl (.plain (by decide) .nil))).fresh
  have hdecoded : decode escapedBrace.toList = .ok plainBrace.toList := by decide +kernel
  have hplain : ¬ ShowsEscape plainBrace.toList := by
    rw [ShowsEscape]
    decide +kernel
  obtain ⟨⟨data, tokens⟩, htokens, htest⟩ := exists_of_toOption_map (show
    (Token.ofSource escapedBrace.toList).toOption.map (fun found =>
      (found.1, decide (Unbroken found.2))) = some (plainBrace.toList, true) by
    decide +kernel)
  obtain ⟨rfl, hunbroken⟩ := Prod.mk.inj htest
  obtain ⟨unit, hunit, htext⟩ := exists_of_toOption_map (show
    (SourceUnit.ofSource escapedBrace none).toOption.map (·.declarations.map (·.text)) =
      some [escapedBrace] by decide +kernel)
  obtain ⟨unit', hunit', htext'⟩ := exists_of_toOption_map (show
    (SourceUnit.ofSource plainBrace none).toOption.map (·.declarations.map (·.text)) =
      some [plainBrace] by decide +kernel)
  have hagree := (ofSource_agree_decoded hregular hdecoded hplain none).2 tokens htokens
    (of_decide_eq_true hunbroken)
  have hunit'' : SourceUnit.ofSource ⟨plainBrace.toList⟩ none = .ok unit' := hunit'
  rw [hunit, hunit''] at hagree
  cases hagree with
  | ok halike =>
    exact ⟨hregular, hdecoded, hplain, unit, unit', hunit, hunit', htext, htext', halike⟩

/-- A literal with a line feed, two backslashes and an escape, and a field on the next line. -/
def brokenLiteral : WideString := "class A\x7bString s=\"\n\\\\\\u0041\";\n int x;\x7d"

/-- The same without the escape. -/
def plainLiteral : WideString := "class A\x7bString s=\"\n\\\\A\";\n int x;\x7d"

/-- A line feed in a literal moves the text of the field on the next line.  Here that text begins with the
second of two backslashes, in front of an escape, and is not decoded to the text of the field in the
decoded source. -/
theorem not_decodes_behind_broken_literal :
    Regular true brokenLiteral.toList ∧ decode brokenLiteral.toList = .ok plainLiteral.toList ∧
    ¬ ShowsEscape plainLiteral.toList ∧
    ∃ first second first' second' : WideString,
      (SourceUnit.ofSource brokenLiteral none).toOption.map
        (fun unit => (unit.declarations.flatMap (·.children)).map (·.text)) = some [first, second] ∧
      (SourceUnit.ofSource plainLiteral none).toOption.map
        (fun unit => (unit.declarations.flatMap (·.children)).map (·.text)) = some [first', second'] ∧
      Decodes first first' ∧ ¬ Decodes second second' := by
  refine ⟨?_, by decide +kernel, ?_, "String s=\"\n\\\\\\u0041\";", "\\\\u0041\";\n ",
    "String s=\"\n\\\\A\";", "\\A\";\n ", by decide +kernel, by decide +kernel, ?_, ?_⟩
  · have hsplit : brokenLiteral.toList = WideString.toList "class A\x7bString s=\"\n" ++
        .char '\\' :: .char '\\' :: .char '\\' :: (List.replicate 1 (.char 'u') ++
          (WideString.toList "0041" ++ (WideString.toList "\";\n int x;\x7d" ++ []))) := by
      decide +kernel
    have hrest : Regular false (WideString.toList "\";\n int x;\x7d" ++ []) :=
      .append (by decide +kernel) .nil
    rw [hsplit]
    exact (Regular.append (by decide +kernel)
      (.pair (by decide) (.escape rfl rfl hrest.fresh))).fresh
  · rw [ShowsEscape]
    decide +kernel
  · rw [Decodes]
    decide +kernel
  · rw [Decodes]
    decide +kernel

end SourceDoc
