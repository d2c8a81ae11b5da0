import SourceDoc.Grammar.Types
import SourceDoc.Proofs.Grammar.Keeps

/-!
# What the grammar of types keeps

Types have no brackets but the pairs of their dimensions, so their parsers end as high as they begin,
and may begin anywhere.
-/

namespace SourceDoc.Grammar

open SourceDoc.Grammar.Parser SourceDoc.Token

variable {tokens : Array Token} {g : Ground} {a : Nat} {parse : Descend} {c : Cursor}

theorem walk_dimension : Walk tokens g [.text "[", .text "]"] a a :=
  .text (Ground.step_square a) (.text (Ground.step_unsquare a) .nil)

theorem keeps_dimensions : Keeps tokens g a (fun _ => a) dimensions c :=
  (Keeps.collect fun _ => Keeps.ifTakes walk_dimension (fun _ => keeps_pure _ le_rfl)
    (fun _ => keeps_pure _ le_rfl)).bind fun _ _ _ => keeps_pure _ le_rfl

section
variable (hproper : ∀ t ∈ tokens, Proper t)
include hproper

theorem keeps_identifier : Keeps tokens g a (fun _ => a) identifier c :=
  keeps_expect (.ofClass hproper (by decide) .nil)

theorem keeps_basicType : Keeps tokens g a (fun _ => a) basicType c :=
  keeps_expect (.ofClass hproper (by decide) .nil)

end

theorem Keeps.listed {α : Type} {closer : String} {item : Parser α}
    (hcloser : closer ∉ Gauge.fences) (hitem : ∀ c, Keeps tokens g a (fun _ => a) item c) :
    Keeps tokens g a (fun _ => a) (listed closer item) c := by
  refine (hitem c).bind fun _ _ _ => Keeps.chain fun _ c => ?_
  refine Keeps.ifTakesWord hcloser (fun _ => keeps_pure _ le_rfl) fun c => ?_
  exact (keeps_word (by decide)).bind fun _ c _ =>
    (hitem c).bind fun _ _ _ => keeps_pure _ le_rfl

section
variable (hp : Kept tokens parse) (hf : g.floor ≤ a)
include hp hf

theorem keeps_type : Keeps tokens g a (fun _ => a) (type parse) c := by
  refine Keeps.ifPeek (peeks_seesClass _) (fun _ => ?_) ?_
  · exact (keeps_basicType hp.proper).bind fun _ _ _ =>
      keeps_dimensions.bind fun _ _ _ => keeps_pure _ le_rfl
  · refine Keeps.ifPeek (peeks_seesClass _) (fun _ => ?_) (keeps_refuse _)
    exact (hp.keeps .reference hf (Nat.zero_le _)).bind fun _ _ _ =>
      keeps_dimensions.bind fun _ _ _ => keeps_pure _ le_rfl

theorem keeps_objectType : Keeps tokens g a (fun _ => a) (objectType parse) c := by
  refine Keeps.ifPeek (peeks_seesClass _) (fun _ => ?_) ?_
  · refine (keeps_basicType hp.proper).bind fun _ _ _ => ?_
    refine (keeps_symbol (Ground.step_square a)).bind fun _ _ _ => ?_
    refine (keeps_symbol (Ground.step_unsquare a)).bind fun _ _ _ => ?_
    exact keeps_dimensions.bind fun _ _ _ => keeps_pure _ le_rfl
  · exact (hp.keeps .reference hf (Nat.zero_le _)).bind fun _ _ _ =>
      keeps_dimensions.bind fun _ _ _ => keeps_pure _ le_rfl

theorem keeps_typeArgument : Keeps tokens g a (fun _ => a) (typeArgument parse) c := by
  have hobject : ∀ {f : TypeRef → TypeArgument} {c : Cursor},
      Keeps tokens g a (fun _ => a) (do return f (← objectType parse)) c :=
    (keeps_objectType hp hf).bind fun _ _ _ => keeps_pure _ le_rfl
  refine Keeps.ifTakesWord (by decide) (fun _ => ?_) (fun _ => hobject)
  refine Keeps.ifTakesWord (by decide) (fun _ => hobject) fun _ => ?_
  exact Keeps.ifTakesWord (by decide) (fun _ => hobject) (fun _ => keeps_pure _ le_rfl)

theorem keeps_typeArguments : Keeps tokens g a (fun _ => a) (typeArguments parse) c :=
  (keeps_word (by decide)).bind fun _ _ _ =>
    Keeps.listed (by decide) fun _ => keeps_typeArgument hp hf

theorem keeps_segment : Keeps tokens g a (fun _ => a) (segment parse) c := by
  refine (keeps_identifier hp.proper).bind fun _ _ _ => ?_
  refine Keeps.ifPeek (peeks_seesText _) (fun _ => ?_) (keeps_pure _ le_rfl)
  exact (keeps_typeArguments hp hf).bind fun _ _ _ => keeps_pure _ le_rfl

theorem keeps_reference : Keeps tokens g a (fun _ => a) (reference parse) c :=
  Keeps.separated (by decide) fun _ => keeps_segment hp hf

theorem keeps_typeList : Keeps tokens g a (fun _ => a) (typeList parse) c :=
  Keeps.separated (by decide) fun _ => keeps_objectType hp hf

theorem keeps_plainArguments : Keeps tokens g a (fun _ => a) (plainArguments parse) c := by
  refine (keeps_word (by decide)).bind fun _ _ _ => ?_
  exact (keeps_typeList hp hf).bind fun _ _ _ => keeps_word (by decide)

theorem keeps_plainArguments? : Keeps tokens g a (fun _ => a) (plainArguments? parse) c := by
  refine Keeps.ifPeek (peeks_seesText _) (fun _ => ?_) (keeps_pure _ le_rfl)
  exact (keeps_plainArguments hp hf).bind fun _ _ _ => keeps_pure _ le_rfl

theorem keeps_typeParameter : Keeps tokens g a (fun _ => a) (typeParameter parse) c := by
  refine (keeps_identifier hp.proper).bind fun _ _ _ => ?_
  refine Keeps.ifTakesWord (by decide) (fun _ => ?_) (fun _ => keeps_pure _ le_rfl)
  refine Keeps.bind (Keeps.separated (by decide) fun _ => ?_) fun _ _ _ => keeps_pure _ le_rfl
  exact hp.keeps .reference hf (Nat.zero_le _)

theorem keeps_typeParameters? : Keeps tokens g a (fun _ => a) (typeParameters? parse) c := by
  refine Keeps.ifPeek (peeks_seesText _) (fun _ => ?_) (keeps_pure _ le_rfl)
  exact (keeps_word (by decide)).bind fun _ _ _ =>
    Keeps.listed (by decide) fun _ => keeps_typeParameter hp hf

end

end SourceDoc.Grammar
