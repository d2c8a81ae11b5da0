import SourceDoc.Proofs.Span.Stacks
import Mathlib.Order.Nat

/-!
# Ends within bracket groups

The searches for ends count brackets: `closing` those of one kind, `declarationEnd` parentheses and square
brackets, `statementEnd` all kinds, and their counts may become negative.  In balanced tokens all three
agree with the stack that keeps the open brackets.  Two places with the same open brackets stand in the
same group, at the same depth (`Beside`).  A search from a place ends at the first end beside it, or at the
partner of the first brace beside it, and so within the group (`ends_within_group`).
-/

namespace SourceDoc.TokenText

open SourceDoc.Grammar SourceDoc.Grammar.Parser SourceDoc.Token

variable {src : TokenText} {tokens : Array Token} {anchor k n : Nat} {stack : List Opened}

/-! ### Groups -/

/-- A place is in the group of another before it, and as deep as it: the same brackets are open at both.
A closing bracket is in the group that it ends. -/
def Beside (tokens : Array Token) (anchor k : Nat) : Prop :=
  anchor ≤ k ∧ ∃ stack, openedAt tokens 0 anchor = some stack ∧ openedAt tokens 0 k = some stack

/-- From one place to another, no bracket is closed that is open at the first. -/
def Encloses (tokens : Array Token) (anchor k : Nat) : Prop :=
  ∀ n, anchor ≤ n → n ≤ k → ∃ stack inner, openedAt tokens 0 anchor = some stack ∧
    openedAt tokens 0 n = some inner ∧ stack <:+ inner

/-- A group is not left on the way to a place beside. -/
theorem Beside.encloses (h : Beside tokens anchor k) : Encloses tokens anchor k := by
  obtain ⟨-, stack, hanchor, hk⟩ := h
  intro n hlo hhi
  cases stack with
  | nil =>
    obtain ⟨inner, hinner⟩ := exists_openedAt_of_le hk hhi
    exact ⟨[], inner, hanchor, hinner, List.nil_suffix⟩
  | cons e rest =>
    -- The innermost bracket around the first place is still open at the second.
    have hlt := (openSince hanchor List.suffix_rfl).lt
    obtain ⟨inner, hinner, hsuffix⟩ := (openSince hk List.suffix_rfl).since n (by omega) hhi
    exact ⟨e :: rest, inner, hanchor, hinner, hsuffix⟩

theorem Encloses.trans (h₁ : Encloses tokens anchor k) (h₂ : Encloses tokens k n)
    (hle : anchor ≤ k) : Encloses tokens anchor n := by
  intro m hlo hhi
  rcases Nat.le_total m k with hm | hm
  · exact h₁ m hlo hm
  · obtain ⟨stack, outer, hanchor, houter, hsuffix⟩ := h₁ k hle le_rfl
    obtain ⟨outer', inner, houter', hinner, hsuffix'⟩ := h₂ m hm hhi
    obtain rfl := Option.some.inj (houter.symm.trans houter')
    exact ⟨stack, inner, hanchor, hinner, hsuffix.trans hsuffix'⟩

/-- A bracket and its partner are in the same group, with all that is between them. -/
theorem Partners.encloses {i j : Nat} (h : Partners tokens 0 i j) : Encloses tokens i j := by
  obtain ⟨opener, -, rest, hstack, -⟩ := h
  obtain ⟨-, -, -, -, hbefore, hsince⟩ := openSince hstack List.suffix_rfl
  dsimp only at hbefore hsince
  intro n hlo hhi
  rcases Nat.eq_or_lt_of_le hlo with rfl | hlt
  · exact ⟨rest, rest, hbefore, hbefore, List.suffix_rfl⟩
  · obtain ⟨inner, hinner, hsuffix⟩ := hsince n hlt hhi
    exact ⟨rest, inner, hbefore, hinner, (List.suffix_cons _ _).trans hsuffix⟩

/-! ### Places that are as high -/

/-- **Within a group, a place that is as high as the first for a count of some kinds is beside it, or in a
bracket of another kind that was opened beside it.** -/
theorem beside_of_height_eq {m : Gauge} (hle : anchor ≤ n) (h : Encloses tokens anchor n)
    (hheight : height m tokens n = height m tokens anchor) :
    Beside tokens anchor n ∨ ∃ p opener, p < n ∧ Beside tokens anchor p ∧ Stands tokens p opener ∧
      isOpener opener = true ∧ m.weight opener = 0 := by
  obtain ⟨stack, inner, hanchor, hinner, front, rfl⟩ := h n hle le_rfl
  have hheight₁ := height_eq_load m (Nat.zero_le _) hanchor
  have hheight₂ := height_eq_load m (Nat.zero_le _) hinner
  rw [load_append] at hheight₂
  rcases List.eq_nil_or_concat' front with rfl | ⟨front, e, rfl⟩
  · exact .inl ⟨hle, stack, hanchor, hinner⟩
  · -- The outermost of the brackets that were opened on the way counts nothing.
    have hsuffix : e :: stack <:+ front ++ [e] ++ stack := by
      rw [List.append_assoc]
      exact List.suffix_append _ _
    obtain ⟨-, hlt, hstands, hopener, hbefore, hsince⟩ := openSince hinner hsuffix
    have hbehind : anchor ≤ e.index := by
      by_contra hearlier
      obtain ⟨found, hfound, hlong⟩ := hsince anchor (by omega) hle
      obtain rfl := Option.some.inj (hanchor.symm.trans hfound)
      have := hlong.length_le
      rw [List.length_cons] at this
      omega
    have hfront : 0 ≤ load m front := load_nonneg m fun f hf =>
      isOpener_of_mem hinner (by simp [hf])
    have hweight := weight_nonneg m hopener
    rw [load_append, load_cons] at hheight₂
    refine .inr ⟨e.index, e.opener, hlt, ⟨hbehind, stack, hanchor, hbefore⟩, hstands, hopener, ?_⟩
    show m.weight e.opener = 0
    have hnil : load m [] = 0 := rfl
    omega

theorem Beside.height_eq (h : Beside tokens anchor k) (m : Gauge) :
    height m tokens k = height m tokens anchor := by
  obtain ⟨-, stack, hanchor, hk⟩ := h
  rw [height_eq_load m (Nat.zero_le _) hanchor, height_eq_load m (Nat.zero_le _) hk]

/-- A walk that counts brackets, and stops at some tokens, passes from a place to one beside it, if none of
these tokens is beside the first place on the way.  The brackets that it does not count are among them. -/
theorem Walks.skip_beside {α : Type} {m : Gauge} {stops : String → Prop}
    {walk : Int → Int → List Token → Option α} (hwalk : Walks m stops walk)
    (huncounted : ∀ opener, isOpener opener = true → m.weight opener = 0 → stops opener)
    (h : Beside tokens anchor k)
    (hfirst : ∀ n value, n < k → Beside tokens anchor n → Stands tokens n value → ¬ stops value) :
    walk 0 anchor (tokens.toList.drop anchor) = walk 0 k (tokens.toList.drop k) := by
  have hskip : walk (height m tokens anchor - height m tokens anchor) anchor
      (tokens.toList.drop anchor) =
        walk (height m tokens k - height m tokens anchor) k (tokens.toList.drop k) := by
    refine hwalk.skip h.1 fun n hlo hhi => ?_
    have hencloses : Encloses tokens anchor n := fun l hl hln => h.encloses l hl (by omega)
    obtain ⟨next, hnext⟩ := exists_openedAt_of_le h.2.choose_spec.2 (show n + 1 ≤ k by omega)
    obtain ⟨t, -, ht, -⟩ := openedAt_succ_cases (Nat.zero_le n) hnext
    refine ⟨t, ht, fun hstops hheight => ?_⟩
    rcases beside_of_height_eq hlo hencloses hheight with
      hbeside | ⟨p, opener, hlt, hbeside, hstands, hopener, hweight⟩
    · exact hfirst n t.value hhi hbeside ⟨t, ht, rfl⟩ hstops
    · exact hfirst p opener (by omega) hbeside hstands (huncounted opener hopener hweight)
  rwa [h.height_eq m, Int.sub_self] at hskip

/-! ### Ends -/

/-- A statement ends at the first semicolon beside its start. -/
theorem statementEnd_of_beside (h : Beside src.tokens anchor k) (hstands : Stands src.tokens k ";")
    (hfirst : ∀ n, Beside src.tokens anchor n → Stands src.tokens n ";" → k ≤ n) :
    src.statementEnd anchor = .ok (k : Int) := by
  have hcounted : ∀ opener, isOpener opener = true → Gauge.brackets.weight opener = 0 →
      opener = ";" := by
    intro opener hopener hweight
    rw [weight_opener (List.contains_iff_mem.1 hopener)] at hweight
    cases hweight
  have hwalk := walks_semicolonFrom.skip_beside hcounted h fun n value hlt hbeside hvalue hstop =>
    absurd (hfirst n hbeside (hstop ▸ hvalue)) (by omega)
  obtain ⟨t, ht, hvalue⟩ := hstands
  rw [drop_eq_cons ht, semicolonFrom_stop hvalue] at hwalk
  rw [statementEnd, tokensFrom_natCast]
  simp only [bind, Except.bind, hwalk]
  rfl

/-- No brace and no semicolon stands beside a place before another one that is beside it. -/
def NoneBefore (tokens : Array Token) (anchor k : Nat) : Prop :=
  ∀ n, Beside tokens anchor n → Stands tokens n openBrace ∨ Stands tokens n ";" → k ≤ n

theorem bodyOrEndFrom_of_beside (h : Beside tokens anchor k) (hfirst : NoneBefore tokens anchor k) :
    bodyOrEndFrom 0 anchor (tokens.toList.drop anchor) = bodyOrEndFrom 0 k (tokens.toList.drop k) := by
  -- Braces are not counted, but the walk stops at them.
  have hcounted : ∀ opener ∈ brackets.map Prod.fst, Gauge.heading.weight opener = 0 →
      opener = openBrace ∨ opener = ";" := by decide
  refine walks_bodyOrEndFrom.skip_beside
    (fun opener hopener => hcounted opener (List.contains_iff_mem.1 hopener)) h ?_
  intro n value hlt hbeside hvalue hstop
  have hle : k ≤ n := by
    apply hfirst n hbeside
    rcases hstop with rfl | rfl
    · exact .inl hvalue
    · exact .inr hvalue
  omega

/-- A declaration whose body opens beside its start ends with the body. -/
theorem declarationEnd_of_beside_brace (h : Beside src.tokens anchor k)
    (hfirst : NoneBefore src.tokens anchor k) (hbrace : Stands src.tokens k openBrace) :
    src.declarationEnd anchor = src.closing k := by
  obtain ⟨t, ht, hvalue⟩ := hbrace
  have hwalk := bodyOrEndFrom_of_beside h hfirst
  rw [drop_eq_cons ht, bodyOrEndFrom_openBrace hvalue] at hwalk
  rw [declarationEnd, tokensFrom_natCast]
  simp only [bind, Except.bind, hwalk]

/-- A declaration without a body ends at the semicolon beside its start. -/
theorem declarationEnd_of_beside_semicolon (h : Beside src.tokens anchor k)
    (hfirst : NoneBefore src.tokens anchor k) (hsemicolon : Stands src.tokens k ";") :
    src.declarationEnd anchor = .ok (k : Int) := by
  obtain ⟨t, ht, hvalue⟩ := hsemicolon
  have hwalk := bodyOrEndFrom_of_beside h hfirst
  rw [drop_eq_cons ht, bodyOrEndFrom_semicolon hvalue] at hwalk
  rw [declarationEnd, tokensFrom_natCast]
  simp only [bind, Except.bind, hwalk]
  rfl

/-! ### All ends -/

theorem exists_partners_of_opener (h : Balanced src.tokens 0 src.size) {i : Nat} {opener : String}
    (hstands : Stands src.tokens i opener) (hopener : isOpener opener = true) :
    ∃ j, Partners src.tokens 0 i j := by
  obtain ⟨t, ht, -⟩ := id hstands
  have hsize : i < src.size := (Array.getElem?_eq_some_iff.1 ht).1
  obtain ⟨j, -, -, hpartners⟩ := exists_partners h (Nat.zero_le i) hsize hstands hopener
  exact ⟨j, hpartners⟩

/-- **In balanced tokens, no search for an end leaves the bracket group that it begins in.**  The partner of
an opening bracket is the one that the stack pairs it with, although brackets of its own kind only are
counted.  A statement ends at the first semicolon beside its start, if there is one.  A declaration ends at
the first semicolon or brace beside its start, or rather at the partner of the brace, if there is one. -/
theorem ends_within_group (h : Balanced src.tokens 0 src.size) :
    (∀ i opener, Stands src.tokens i opener → isOpener opener = true →
      ∃ j : Nat, src.closing i = .ok (j : Int) ∧ (∀ k, Partners src.tokens 0 i k ↔ k = j) ∧
        Encloses src.tokens i j) ∧
    (∀ anchor, (∃ k, Beside src.tokens anchor k ∧ Stands src.tokens k ";") →
      ∃ j : Nat, src.statementEnd anchor = .ok (j : Int) ∧
        IsLeast {k | Beside src.tokens anchor k ∧ Stands src.tokens k ";"} j ∧
        Encloses src.tokens anchor j) ∧
    ∀ anchor, (∃ k, Beside src.tokens anchor k ∧
        (Stands src.tokens k openBrace ∨ Stands src.tokens k ";")) →
      ∃ first j : Nat, src.declarationEnd anchor = .ok (j : Int) ∧
        IsLeast {k | Beside src.tokens anchor k ∧
          (Stands src.tokens k openBrace ∨ Stands src.tokens k ";")} first ∧
        (Stands src.tokens first ";" ∧ j = first ∨
          Stands src.tokens first openBrace ∧ Partners src.tokens 0 first j) ∧
        Encloses src.tokens anchor j := by
  classical
  refine ⟨fun i opener hstands hopener => ?_, fun anchor hsome => ?_, fun anchor hsome => ?_⟩
  · obtain ⟨j, hpartners⟩ := exists_partners_of_opener h hstands hopener
    have hclosing := closing_of_partners hpartners
    refine ⟨j, hclosing, fun k => ⟨fun hk => ?_, fun hk => hk ▸ hpartners⟩, hpartners.encloses⟩
    -- Another partner would be what the search finds, too.
    exact Int.ofNat_inj.1 (Except.ok.inj ((closing_of_partners hk).symm.trans hclosing))
  · have hleast := Nat.isLeast_find hsome
    generalize Nat.find hsome = j at hleast
    obtain ⟨⟨hbeside, hstands⟩, hfirst⟩ := hleast
    have hend := statementEnd_of_beside hbeside hstands fun n hn hstop => hfirst ⟨hn, hstop⟩
    exact ⟨j, hend, ⟨⟨hbeside, hstands⟩, hfirst⟩, hbeside.encloses⟩
  · have hleast := Nat.isLeast_find hsome
    generalize Nat.find hsome = first at hleast
    obtain ⟨⟨hbeside, hmark⟩, hfirst⟩ := hleast
    have hnone : NoneBefore src.tokens anchor first := fun n hn hstop => hfirst ⟨hn, hstop⟩
    rcases hmark with hbrace | hsemicolon
    · obtain ⟨j, hpartners⟩ := exists_partners_of_opener h hbrace (by decide)
      refine ⟨first, j, ?_, ⟨⟨hbeside, .inl hbrace⟩, hfirst⟩, .inr ⟨hbrace, hpartners⟩, ?_⟩
      · rw [declarationEnd_of_beside_brace hbeside hnone hbrace, closing_of_partners hpartners]
      · exact hbeside.encloses.trans hpartners.encloses hbeside.1
    · have hend := declarationEnd_of_beside_semicolon hbeside hnone hsemicolon
      exact ⟨first, first, hend, ⟨⟨hbeside, .inr hsemicolon⟩, hfirst⟩, .inl ⟨hsemicolon, rfl⟩,
        hbeside.encloses⟩

/-- A method with a statement in its body, and a field behind it, of which only the texts are told. -/
def methodAndField : TokenText :=
  .ofTokens [] (["void", "m", "(", "int", "[", "]", "a", ")", openBrace, "f", "(", "b", ")", ";",
    closeBrace, "int", "c", ";"].map fun text : String => ⟨.identifier, text, ⟨1, 1⟩, none⟩) none

/-- The parameters are closed by their own parenthesis, the statement in the body ends in the body, and the
method ends with its body. -/
theorem ends_within_group_methodAndField :
    Balanced methodAndField.tokens 0 methodAndField.size ∧
      methodAndField.closing 2 = .ok 7 ∧ Partners methodAndField.tokens 0 2 7 ∧
      methodAndField.statementEnd 9 = .ok 13 ∧
      IsLeast {k | Beside methodAndField.tokens 9 k ∧ Stands methodAndField.tokens k ";"} 13 ∧
      methodAndField.declarationEnd 0 = .ok 14 ∧
      ∃ first, Beside methodAndField.tokens 0 first ∧ Stands methodAndField.tokens first openBrace ∧
        Partners methodAndField.tokens 0 first 14 := by
  have hfound : ∀ {found : Except SpanFault Int} {j : Nat} (k : Nat), found = .ok (j : Int) →
      found = .ok (k : Int) → j = k := by
    rintro found j k rfl h
    exact Int.ofNat_inj.1 (Except.ok.inj h)
  have hbalanced : Balanced methodAndField.tokens 0 methodAndField.size := ⟨by decide, by decide⟩
  have hbrace : Beside methodAndField.tokens 0 8 ∧ (Stands methodAndField.tokens 8 openBrace ∨
      Stands methodAndField.tokens 8 ";") := ⟨⟨by decide, _, rfl, rfl⟩, .inl ⟨_, rfl, rfl⟩⟩
  obtain ⟨hclosing, hstatement, hdeclaration⟩ := ends_within_group hbalanced
  obtain ⟨j, hj, hpartners, -⟩ := hclosing 2 "(" ⟨_, rfl, rfl⟩ (by decide)
  obtain rfl := hfound 7 hj (by decide)
  obtain ⟨j, hj', hleast, -⟩ := hstatement 9 ⟨13, ⟨by decide, _, rfl, rfl⟩, _, rfl, rfl⟩
  obtain rfl := hfound 13 hj' (by decide)
  obtain ⟨first, j, hj'', ⟨⟨hbeside, -⟩, hfirst⟩, hend, -⟩ := hdeclaration 0 ⟨8, hbrace⟩
  obtain rfl := hfound 14 hj'' (by decide)
  refine ⟨hbalanced, hj, (hpartners 7).2 rfl, hj', hleast, hj'', first, hbeside, ?_⟩
  have hle : first ≤ 8 := hfirst hbrace
  exact hend.resolve_left fun h => absurd h.2 (by omega)

end SourceDoc.TokenText
