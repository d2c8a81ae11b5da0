import SourceDoc.Grammar.Annotations
import SourceDoc.Proofs.Grammar.Types

/-!
# What the grammar of annotations, modifiers and parameters keeps

What an annotation is given stands in parentheses, and so do parameters: an annotation may stand
anywhere, while a value of an annotation may begin with a brace.
-/

namespace SourceDoc.Grammar

open SourceDoc.Grammar.Parser SourceDoc.Token

variable {tokens : Array Token} {g : Ground} {a : Nat} {parse : Descend} {c : Cursor}

theorem peeks_seesAnnotationAt (ahead : Nat) : Peeks (seesAnnotationAt ahead) :=
  (peeks_look ahead).bind fun _ => (peeks_look (ahead + 1)).bind fun _ => peeks_pure _

theorem peeks_seesAnnotationType : Peeks seesAnnotationType := peeks_sees _

theorem keeps_qualifiedName (hproper : ∀ t ∈ tokens, Proper t) :
    Keeps tokens g a (fun _ => a) qualifiedName c :=
  Keeps.bind (Keeps.separated (by decide) fun _ => keeps_identifier hproper)
    fun _ _ _ => keeps_pure _ le_rfl

section
variable (hp : Kept tokens parse) (hf : g.floor ≤ a)
include hp hf

/-! ### Values of annotations -/

theorem keeps_elementArray (hb : g.gauge.brace ≤ a) :
    Keeps tokens g a (fun _ => a) (elementArray parse) c := by
  have hvalue : ∀ {c : Cursor}, Keeps tokens g (a + g.gauge.curly) (fun _ => a + g.gauge.curly)
      (parse .elementValue) c :=
    hp.keeps .elementValue (hf.trans (Nat.le_add_right _ _)) (hb.trans (Nat.le_add_right _ _))
  refine (keeps_symbol (Ground.step_brace hb)).bind fun _ _ _ => ?_
  refine Keeps.ifTakesText (Ground.step_unbrace a) (fun _ => keeps_pure _ le_rfl) fun _ => ?_
  refine hvalue.bind fun _ _ _ => ?_
  refine (Keeps.collect fun _ => ?_).bind fun _ _ _ => ?_
  · refine Keeps.ifPeek (peeks_seesText _) (fun _ => keeps_pure _ le_rfl) ?_
    refine Keeps.ifPeek (peeks_sees _) (fun _ => keeps_pure _ le_rfl) ?_
    exact (keeps_word (by decide)).bind fun _ _ _ => hvalue.bind fun _ _ _ => keeps_pure _ le_rfl
  · exact (keeps_takesWord (by decide)).bind fun _ _ _ => keeps_symbol (Ground.step_unbrace a)

theorem keeps_elementValue (hb : g.gauge.brace ≤ a) :
    Keeps tokens g a (fun _ => a) (elementValue parse) c := by
  refine Keeps.ifPeek (peeks_seesAnnotationAt 0) (fun _ => ?_) ?_
  · exact (hp.keeps .annotationUse hf (Nat.zero_le _)).bind fun _ _ _ => keeps_pure _ le_rfl
  · exact Keeps.ifPeek (peeks_seesText _) (fun _ => keeps_elementArray hp hf hb)
      (hp.keeps .conditional hf hb)

theorem keeps_elementPair (hb : g.gauge.brace ≤ a) :
    Keeps tokens g a (fun _ => a) (elementPair parse) c := by
  refine Keeps.peek peeks_here fun _ _ => ?_
  refine (keeps_identifier hp.proper).bind fun _ _ _ => ?_
  refine (keeps_word (by decide)).bind fun _ _ _ => ?_
  exact (hp.keeps .elementValue hf hb).measured.bind fun _ _ _ => keeps_pure _ le_rfl

theorem keeps_element (hb : g.gauge.brace ≤ a) :
    Keeps tokens g a (fun _ => a) (element parse) c := by
  refine Keeps.ifPeek (peeks_sees _) (fun _ => ?_) ?_
  · exact Keeps.bind (Keeps.separated (by decide) fun _ => keeps_elementPair hp hf hb)
      fun _ _ _ => keeps_pure _ le_rfl
  · exact (hp.keeps .elementValue hf hb).measured.bind fun _ _ _ => keeps_pure _ le_rfl

theorem keeps_annotationUse : Keeps tokens g a (fun _ => a) (annotationUse parse) c := by
  have hround := g.gauge.brace_le
  refine Keeps.peek peeks_here fun _ _ => ?_
  refine (keeps_word (by decide)).bind fun _ _ _ => ?_
  refine (keeps_qualifiedName hp.proper).bind fun _ _ _ => ?_
  refine Keeps.ifTakesText (Ground.step_round a) (fun _ => ?_) (fun _ => keeps_pure _ le_rfl)
  refine Keeps.ifTakesText (Ground.step_unround a) (fun _ => keeps_pure _ le_rfl) fun _ => ?_
  refine (keeps_element hp (by omega) (by omega)).bind fun _ _ _ => ?_
  exact (keeps_symbol (Ground.step_unround a)).bind fun _ _ _ => keeps_pure _ le_rfl

theorem keeps_annotations : Keeps tokens g a (fun _ => a) (annotations parse) c := by
  have huse : ∀ {c : Cursor}, Keeps tokens g a (fun _ => a) (parse .annotationUse) c :=
    hp.keeps .annotationUse hf (Nat.zero_le _)
  refine huse.bind fun _ _ _ => Keeps.chain fun _ _ => ?_
  exact Keeps.ifPeek (peeks_seesAnnotationAt 0)
    (fun _ => huse.bind fun _ _ _ => keeps_pure _ le_rfl) (keeps_pure _ le_rfl)

/-! ### Modifiers and parameters -/

theorem keeps_front : Keeps tokens g a (fun _ => a) (front parse) c := by
  refine Keeps.peek peeks_index fun _ _ => Keeps.peek (peeks_look 0) fun _ _ => ?_
  refine (Keeps.collect fun _ => ?_).bind fun _ _ _ => keeps_pure _ le_rfl
  refine Keeps.ifPeek (peeks_seesClass _) (fun _ => ?_) ?_
  · exact (keeps_expect (.ofClass hp.proper (by decide) .nil)).bind
      fun _ _ _ => keeps_pure _ le_rfl
  · refine Keeps.ifPeek (peeks_seesAnnotationAt 0) (fun _ => ?_) (keeps_pure _ le_rfl)
    exact (hp.keeps .annotationUse hf (Nat.zero_le _)).bind fun _ _ _ => keeps_pure _ le_rfl

theorem keeps_variableFront : Keeps tokens g a (fun _ => a) (variableFront parse) c := by
  refine Keeps.collect fun _ => ?_
  refine Keeps.ifTakesWord (by decide) (fun _ => keeps_pure _ le_rfl) fun _ => ?_
  refine Keeps.ifPeek (peeks_seesAnnotationAt 0) (fun _ => ?_) (keeps_pure _ le_rfl)
  exact (hp.keeps .annotationUse hf (Nat.zero_le _)).bind fun _ _ _ => keeps_pure _ le_rfl

theorem keeps_parameter : Keeps tokens g a (fun _ => a) (parameter parse) c := by
  refine (keeps_variableFront hp hf).bind fun _ _ _ => ?_
  refine (keeps_type hp hf).bind fun _ _ _ => ?_
  refine (keeps_takesWord (by decide)).bind fun _ _ _ => ?_
  refine (keeps_identifier hp.proper).bind fun _ _ _ => ?_
  exact keeps_dimensions.bind fun _ _ _ => keeps_pure _ le_rfl

theorem keeps_parameters : Keeps tokens g a (fun _ => a) (parameters parse) c := by
  have hparameter : ∀ {c : Cursor}, Keeps tokens g (a + g.gauge.round)
      (fun _ => a + g.gauge.round) (parameter parse) c :=
    keeps_parameter hp (hf.trans (Nat.le_add_right _ _))
  refine (keeps_symbol (Ground.step_round a)).bind fun _ _ _ => ?_
  refine Keeps.ifTakesText (Ground.step_unround a) (fun _ => keeps_pure _ le_rfl) fun _ => ?_
  refine hparameter.bind fun _ _ _ => ?_
  refine (Keeps.chain fun last _ => ?_).bind fun _ _ _ => ?_
  · split
    · exact keeps_pure _ le_rfl
    · exact Keeps.ifTakesWord (by decide)
        (fun _ => hparameter.bind fun _ _ _ => keeps_pure _ le_rfl) (fun _ => keeps_pure _ le_rfl)
  · exact (keeps_symbol (Ground.step_unround a)).bind fun _ _ _ => keeps_pure _ le_rfl

end

theorem keeps_header (front : Front) (position : Option Position) :
    Keeps tokens g a (fun _ => a) (front.header position) c :=
  Keeps.peek peeks_index fun _ _ => keeps_pure _ le_rfl

end SourceDoc.Grammar
