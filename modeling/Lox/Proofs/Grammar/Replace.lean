import Lox.Proofs.Grammar.Sound
import Lox.Proofs.Grammar.WhileForm

/-! Every `for` among the tokens of a phrase starts a statement, and another statement of the same
words may stand in its place. -/

namespace Lox

open Token (ofKind kind_ofKind)
open Likeness (words words_reflexive words_covers)
open Readers (EndsStatement)

def Phrase.takesElse : Phrase → Bool
  | statement _ o _ => o
  | declaration _ _ | declarations _ _ => true
  | _ => false

def Phrase.Replaces : Phrase → Phrase → Prop
  | statement b o s, φ => ∃ o' s', φ = .statement b o' s' ∧ (o' = true → o = true) ∧
      s.Alike words () s'
  | ψ, φ => ψ.Alike words φ

/-- A statement starts at every `for` among the tokens. The property holds of the tokens with any
statement of the same words in its place. -/
def ForSlots (takesElse : Bool) (ts : List Token) (P : List Token → Prop) : Prop :=
  ∀ before keyword after, ts = before ++ keyword :: after → keyword.kind = .forWord →
    ∃ (p : ForParts) (rest : List Token) (b o : Bool) (s : Stmt),
      keyword :: after = p.tokens ++ rest ∧ p.Denotes o s ∧ EndsStatement o rest ∧
      (o = true → rest = [] → takesElse = true) ∧
      ∀ ts' o' s', Spells (.statement b o' s') ts' → (o' = true → o = true) →
        s.Alike words () s' → P (before ++ (ts' ++ rest))

namespace ForSlots

variable {o o' : Bool} {ts us : List Token} {t : Token} {P Q : List Token → Prop}

lemma mono (h : ForSlots o ts P) (ho : o = true → o' = true) (hP : ∀ ts', P ts' → Q ts') :
    ForSlots o' ts Q := by
  intro before keyword after hts hk
  obtain ⟨p, rest, b, q, s, htokens, hp, hend, hlast, hreplace⟩ := h before keyword after hts hk
  exact ⟨p, rest, b, q, s, htokens, hp, hend, fun hq hrest => ho (hlast hq hrest),
    fun ts' o' s' hs hq halike => hP _ (hreplace ts' o' s' hs hq halike)⟩

lemma map (h : ForSlots o ts P) (hP : ∀ ts', P ts' → Q ts') : ForSlots o ts Q := h.mono id hP

lemma nil : ForSlots o [] P := by
  intro before keyword after hts
  simp at hts

lemma cons (ht : t.kind ≠ .forWord) (h : ForSlots o ts fun ts' => P (t :: ts')) :
    ForSlots o (t :: ts) P := by
  intro before keyword after hts hk
  cases before with
  | nil =>
    obtain ⟨rfl, -⟩ := List.cons.inj hts
    exact absurd hk ht
  | cons u before =>
    obtain ⟨rfl, rfl⟩ := List.cons.inj hts
    exact h before keyword after rfl hk

lemma single (ht : t.kind ≠ .forWord) : ForSlots o [t] P := cons ht nil

lemma append (h : ForSlots o ts fun ts' => P (ts' ++ us))
    (h' : ForSlots o' us fun us' => P (ts ++ us'))
    (ho : o = true → following us ≠ .elseWord ∧ (us = [] → o' = true)) :
    ForSlots o' (ts ++ us) P := by
  intro before keyword after hts hk
  obtain ⟨mid, rfl, hus⟩ | ⟨mid, rfl, hmid⟩ := List.append_eq_append_iff.mp hts
  · obtain ⟨p, rest, b, q, s, htokens, hp, hend, hlast, hreplace⟩ := h' mid keyword after hus hk
    refine ⟨p, rest, b, q, s, htokens, hp, hend, hlast, fun ts' o' s' hs hq halike => ?_⟩
    simpa using hreplace ts' o' s' hs hq halike
  cases mid with
  | nil =>
    obtain ⟨p, rest, b, q, s, htokens, hp, hend, hlast, hreplace⟩ :=
      h' [] keyword after hmid.symm hk
    refine ⟨p, rest, b, q, s, htokens, hp, hend, hlast, fun ts' o' s' hs hq halike => ?_⟩
    simpa using hreplace ts' o' s' hs hq halike
  | cons k mid =>
    obtain ⟨rfl, rfl⟩ := List.cons.inj hmid
    obtain ⟨p, rest, b, q, s, htokens, hp, hend, hlast, hreplace⟩ := h before keyword mid rfl hk
    have hall : keyword :: (mid ++ us) = p.tokens ++ (rest ++ us) := by
      rw [← List.cons_append, htokens, List.append_assoc]
    refine ⟨p, rest ++ us, b, q, s, hall, hp, fun hq => ?_, fun hq hrest => ?_,
      fun ts' o' s' hs hq halike => ?_⟩
    · cases rest with
      | nil => exact (ho (hlast hq rfl)).1
      | cons r rest => exact hend hq
    · obtain ⟨rfl, rfl⟩ := List.append_eq_nil_iff.mp hrest
      exact (ho (hlast hq rfl)).2 rfl
    · simpa using hreplace ts' o' s' hs hq halike

theorem append_closed (h : ForSlots false ts fun ts' => P (ts' ++ us))
    (h' : ForSlots o us fun us' => P (ts ++ us')) : ForSlots o (ts ++ us) P :=
  h.append h' (by simp)

theorem loop {p : ForParts} {b : Bool} {s : Stmt} (hp : p.Denotes o s)
    (hP : ∀ ts' o' s', Spells (.statement b o' s') ts' → (o' = true → o = true) →
      s.Alike words () s' → P ts')
    (h : ForSlots o p.tokens.tail fun ts' => P (p.keyword :: ts')) : ForSlots o p.tokens P := by
  intro before keyword after hts hk
  cases before with
  | nil =>
    refine ⟨p, [], b, o, s, by simpa using hts.symm, hp, by simp [EndsStatement], fun ho _ => ho,
      fun ts' o' s' hs hq halike => ?_⟩
    simpa using hP ts' o' s' hs hq halike
  | cons u before =>
    obtain ⟨rfl, htail⟩ := List.cons.inj hts
    exact h before keyword after htail hk

end ForSlots

/-! Every tree has its own words. -/

lemma Expr.alike_words (e : Expr) : e.Alike words () e := e.alike_self words_reflexive

lemma alikeExprs_words (es : List Expr) : AlikeExprs words () es es :=
  alikeExprs_self words_reflexive es

lemma Stmt.alike_words (s : Stmt) : s.Alike words () s := s.alike_self words_reflexive

lemma alikeStmts_words (body : List Stmt) : AlikeStmts words () body body :=
  alikeStmts_self words_reflexive body

lemma Function.alike_words (f : Function) : f.Alike words () f := f.alike_self words_reflexive

lemma alikeMembers_words (ms : List Function) : AlikeMembers words () ms ms :=
  alikeMembers_self words_reflexive ms

lemma alikeNamed_words : (ms : List (Bool × Function)) → AlikeNamed words ms ms
  | [] => .nil
  | (_, f) :: ms => .cons f.alike_words (alikeNamed_words ms)

lemma names_words (ps : List Token) : List.Forall₂ (words.binder ()) ps ps :=
  List.forall₂_same.mpr fun t _ => .refl t

lemma option_words (e : Option Expr) : Option.Rel (Expr.Alike words ()) e e :=
  optionRel_same Expr.alike_words e

lemma start_words (s : Option Stmt) : Option.Rel (Stmt.Alike words ()) s s :=
  optionRel_same Stmt.alike_words s

lemma expandFor_words {keyword : Token} {start start' : Option Stmt}
    {c c' step step' : Option Expr} {body body' : Stmt}
    (hstart : Option.Rel (Stmt.Alike words ()) start start')
    (hc : Option.Rel (Expr.Alike words ()) c c')
    (hstep : Option.Rel (Expr.Alike words ()) step step') (hbody : body.Alike words () body') :
    (Readers.expandFor keyword start c step body).Alike words ()
      (Readers.expandFor keyword start' c' step' body') :=
  .expandFor Token.interchangeable_sameWord words_covers (.refl keyword) hstart hc hstep hbody

namespace Phrase

structure Slotted (φ : Phrase) (ts : List Token) : Prop where
  spells : Spells φ ts
  slots : ForSlots φ.takesElse ts fun ts' => ∃ φ', φ.Replaces φ' ∧ Spells φ' ts'

namespace Slotted

variable {level : Level} {b o : Bool} {line : Nat}
  {keyword name opening closing semicolon comma equals mark colon dot op less word first t : Token}
  {ts us vs ws : List Token}

lemma literal_ne_for {t : Token} {value : Literal} (h : t.literal? = some value) :
    t.kind ≠ .forWord := by
  intro hk
  simp [Token.literal?, hk] at h

lemma operator_ne_for {level : Level} {k : Kind} (h : k ∈ level.ops) : k ≠ .forWord := by
  rintro rfl
  cases level <;> simp [Level.ops] at h

lemma pass {e : Expr} (hl : level ≠ .primary) (h : Slotted (.expression level.next e) ts) :
    Slotted (.expression level e) ts where
  spells := .pass hl h.spells
  slots := by
    refine h.slots.map ?_
    rintro _ ⟨_, ⟨_, rfl, he⟩, hs⟩
    exact ⟨_, ⟨_, rfl, he⟩, .pass hl hs⟩

lemma join {l r : Expr} (hop : op.kind ∈ level.ops) (h₁ : Slotted (.expression level l) ts)
    (h₂ : Slotted (.expression level.next r) us) :
    Slotted (.expression level (level.join l op r)) (ts ++ op :: us) where
  spells := .join hop h₁.spells h₂.spells
  slots := by
    refine .append_closed (h₁.slots.map ?_) (.cons (operator_ne_for hop) (h₂.slots.map ?_))
    · rintro _ ⟨_, ⟨_, rfl, he⟩, hs⟩
      exact ⟨_, ⟨_, rfl, .join _ he (.refl _) (Expr.alike_words _)⟩, .join hop hs h₂.spells⟩
    · rintro _ ⟨_, ⟨_, rfl, he⟩, hs⟩
      exact ⟨_, ⟨_, rfl, .join _ (Expr.alike_words _) (.refl _) he⟩, .join hop h₁.spells hs⟩

lemma lambda {params : Params} {body : List Stmt} (hk : keyword.kind = .funWord)
    (h : Slotted (.rest (some params) line body) ts) :
    Slotted (.expression .ternary (.lambda (.mk keyword (some params) line body)))
      (keyword :: ts) where
  spells := .lambda hk h.spells
  slots := by
    refine .cons (by simp [hk]) (h.slots.map ?_)
    rintro _ ⟨_, ⟨_, _, _, rfl, hp, hb⟩, hs⟩
    cases hp with
    | some hp =>
      exact ⟨_, ⟨_, rfl, .lambda (.mk (.refl _) trivial (.some hp) hb)⟩, .lambda hk hs⟩

lemma conditional {c yes no : Expr} (hm : mark.kind = .question) (hc : colon.kind = .colon)
    (hl : c.leavesMark = true) (h₁ : Slotted (.expression .assignment c) ts)
    (h₂ : Slotted (.expression .comma yes) us) (h₃ : Slotted (.expression .ternary no) vs) :
    Slotted (.expression .ternary (.conditional c mark yes no))
      (ts ++ mark :: (us ++ colon :: vs)) where
  spells := .conditional hm hc hl h₁.spells h₂.spells h₃.spells
  slots := by
    refine .append_closed (h₁.slots.map ?_) (.cons (by simp [hm])
      (.append_closed (h₂.slots.map ?_) (.cons (by simp [hc]) (h₃.slots.map ?_))))
    · rintro _ ⟨_, ⟨_, rfl, he⟩, hs⟩
      exact ⟨_, ⟨_, rfl, .conditional he (.refl _) (Expr.alike_words _) (Expr.alike_words _)⟩,
        .conditional hm hc (he.leavesMark.trans hl) hs h₂.spells h₃.spells⟩
    · rintro _ ⟨_, ⟨_, rfl, he⟩, hs⟩
      exact ⟨_, ⟨_, rfl, .conditional (Expr.alike_words _) (.refl _) he (Expr.alike_words _)⟩,
        .conditional hm hc hl h₁.spells hs h₃.spells⟩
    · rintro _ ⟨_, ⟨_, rfl, he⟩, hs⟩
      exact ⟨_, ⟨_, rfl, .conditional (Expr.alike_words _) (.refl _) (Expr.alike_words _) he⟩,
        .conditional hm hc hl h₁.spells h₂.spells hs⟩

lemma assign {target : Reference} {value : Expr} (hk : equals.kind = .equal)
    (h₁ : Slotted (.expression .or (.ref target)) ts)
    (h₂ : Slotted (.expression .ternary value) us) :
    Slotted (.expression .assignment (.assign target value equals.line)) (ts ++ equals :: us) where
  spells := .assign hk h₁.spells h₂.spells
  slots := by
    refine .append_closed (h₁.slots.map ?_) (.cons (by simp [hk]) (h₂.slots.map ?_))
    · rintro _ ⟨_, ⟨_, rfl, he⟩, hs⟩
      cases he with
      | ref hr => exact ⟨_, ⟨_, rfl, .assign hr (Expr.alike_words _)⟩, .assign hk hs h₂.spells⟩
    · rintro _ ⟨_, ⟨_, rfl, he⟩, hs⟩
      exact ⟨_, ⟨_, rfl, .assign (words_reflexive.use _) he⟩, .assign hk h₁.spells hs⟩

lemma set {object value : Expr} (hk : equals.kind = .equal)
    (h₁ : Slotted (.expression .or (.get object name)) ts)
    (h₂ : Slotted (.expression .ternary value) us) :
    Slotted (.expression .assignment (.set object name value equals.line))
      (ts ++ equals :: us) where
  spells := .set hk h₁.spells h₂.spells
  slots := by
    refine .append_closed (h₁.slots.map ?_) (.cons (by simp [hk]) (h₂.slots.map ?_))
    · rintro _ ⟨_, ⟨_, rfl, he⟩, hs⟩
      cases he with
      | get ho hn => exact ⟨_, ⟨_, rfl, .set ho hn (Expr.alike_words _)⟩, .set hk hs h₂.spells⟩
    · rintro _ ⟨_, ⟨_, rfl, he⟩, hs⟩
      exact ⟨_, ⟨_, rfl, .set (Expr.alike_words _) (.refl _) he⟩, .set hk h₁.spells hs⟩

lemma sign {e : Expr} (hop : op.kind ∈ [.bang, .minus]) (h : Slotted (.expression .sign e) ts) :
    Slotted (.expression .sign (.unary op e)) (op :: ts) where
  spells := .sign hop h.spells
  slots := by
    refine .cons (fun hk => by simp [hk] at hop) (h.slots.map ?_)
    rintro _ ⟨_, ⟨_, rfl, he⟩, hs⟩
    exact ⟨_, ⟨_, rfl, .unary (.refl _) he⟩, .sign hop hs⟩

lemma call {callee : Expr} {es : List Expr} (ho : opening.kind = .leftParen)
    (hc : closing.kind = .rightParen) (hl : es.length ≤ maxArguments)
    (h₁ : Slotted (.expression .call callee) ts) (h₂ : Slotted (.items es) us) :
    Slotted (.expression .call (.call callee closing es)) (ts ++ opening :: (us ++ [closing])) where
  spells := .call ho hc hl h₁.spells h₂.spells
  slots := by
    refine .append_closed (h₁.slots.map ?_) (.cons (by simp [ho])
      (.append_closed (h₂.slots.map ?_) (.single (by simp [hc]))))
    · rintro _ ⟨_, ⟨_, rfl, he⟩, hs⟩
      exact ⟨_, ⟨_, rfl, .call he (.refl _) (alikeExprs_words _)⟩, .call ho hc hl hs h₂.spells⟩
    · rintro _ ⟨_, ⟨_, rfl, he⟩, hs⟩
      exact ⟨_, ⟨_, rfl, .call (Expr.alike_words _) (.refl _) he⟩,
        .call ho hc (he.length ▸ hl) h₁.spells hs⟩

lemma get {object : Expr} (hd : dot.kind = .dot) (hn : name.kind = .identifier)
    (h : Slotted (.expression .call object) ts) :
    Slotted (.expression .call (.get object name)) (ts ++ [dot, name]) where
  spells := .get hd hn h.spells
  slots := by
    refine .append_closed (h.slots.map ?_) (.cons (by simp [hd]) (.single (by simp [hn])))
    rintro _ ⟨_, ⟨_, rfl, he⟩, hs⟩
    exact ⟨_, ⟨_, rfl, .get he (.refl _)⟩, .get hd hn hs⟩

lemma literal {value : Literal} (hv : t.literal? = some value) :
    Slotted (.expression .primary (.literal t value)) [t] where
  spells := .literal hv
  slots := .single (literal_ne_for hv)

lemma this (hk : t.kind = .thisWord) : Slotted (.expression .primary (.this ⟨t, none⟩)) [t] where
  spells := .this hk
  slots := .single (by simp [hk])

lemma ref (hk : t.kind = .identifier) : Slotted (.expression .primary (.ref ⟨t, none⟩)) [t] where
  spells := .ref hk
  slots := .single (by simp [hk])

lemma lastName (hk : name.kind = .identifier) : Slotted (.names [name]) [name] where
  spells := .lastName hk
  slots := .single (by simp [hk])

lemma super {method : Token} (hk : t.kind = .superWord) (hd : dot.kind = .dot)
    (hm : method.kind = .identifier) :
    Slotted (.expression .primary (.super ⟨t, none⟩ method)) [t, dot, method] where
  spells := .super hk hd hm
  slots := .cons (by simp [hk]) (.cons (by simp [hd]) (.single (by simp [hm])))

lemma grouping {e : Expr} (ho : opening.kind = .leftParen) (hc : closing.kind = .rightParen)
    (h : Slotted (.expression .comma e) ts) :
    Slotted (.expression .primary (.grouping opening e)) (opening :: (ts ++ [closing])) where
  spells := .grouping ho hc h.spells
  slots := by
    refine .cons (by simp [ho]) (.append_closed (h.slots.map ?_) (.single (by simp [hc])))
    rintro _ ⟨_, ⟨_, rfl, he⟩, hs⟩
    exact ⟨_, ⟨_, rfl, .grouping (.refl _) he⟩, .grouping ho hc hs⟩

lemma list {es : List Expr} (ho : opening.kind = .leftBracket) (hc : closing.kind = .rightBracket)
    (h : Slotted (.items es) ts) :
    Slotted (.expression .primary (.list opening es)) (opening :: (ts ++ [closing])) where
  spells := .list ho hc h.spells
  slots := by
    refine .cons (by simp [ho]) (.append_closed (h.slots.map ?_) (.single (by simp [hc])))
    rintro _ ⟨_, ⟨_, rfl, he⟩, hs⟩
    exact ⟨_, ⟨_, rfl, .list (.refl _) he⟩, .list ho hc hs⟩

lemma absent : Slotted (.optional none) [] where
  spells := .absent
  slots := .nil

lemma noItems : Slotted (.items []) [] where
  spells := .noItems
  slots := .nil

lemma noMembers : Slotted (.members []) [] where
  spells := .noMembers
  slots := .nil

lemma noSuperclass : Slotted (.superclass none) [] where
  spells := .noSuperclass
  slots := .nil

lemma noDeclarations : Slotted (.declarations b []) [] where
  spells := .noDeclarations
  slots := .nil

lemma present {e : Expr} (h : Slotted (.expression .comma e) ts) :
    Slotted (.optional (some e)) ts where
  spells := .present h.spells
  slots := by
    refine h.slots.map ?_
    rintro _ ⟨_, ⟨_, rfl, he⟩, hs⟩
    exact ⟨_, ⟨_, rfl, .some he⟩, .present hs⟩

lemma lastExpression {e : Expr} (h : Slotted (.expression .ternary e) ts) :
    Slotted (.expressions [e]) ts where
  spells := .lastExpression h.spells
  slots := by
    refine h.slots.map ?_
    rintro _ ⟨_, ⟨_, rfl, he⟩, hs⟩
    exact ⟨_, ⟨_, rfl, .cons he .nil⟩, .lastExpression hs⟩

lemma moreExpressions {e : Expr} {es : List Expr} (hc : comma.kind = .comma)
    (h₁ : Slotted (.expression .ternary e) ts) (h₂ : Slotted (.expressions es) us) :
    Slotted (.expressions (e :: es)) (ts ++ comma :: us) where
  spells := .moreExpressions hc h₁.spells h₂.spells
  slots := by
    refine .append_closed (h₁.slots.map ?_) (.cons (by simp [hc]) (h₂.slots.map ?_))
    · rintro _ ⟨_, ⟨_, rfl, he'⟩, hs⟩
      exact ⟨_, ⟨_, rfl, .cons he' (alikeExprs_words _)⟩, .moreExpressions hc hs h₂.spells⟩
    · rintro _ ⟨_, ⟨_, rfl, hes'⟩, hs⟩
      exact ⟨_, ⟨_, rfl, .cons (Expr.alike_words _) hes'⟩, .moreExpressions hc h₁.spells hs⟩

lemma items {es : List Expr} (h : Slotted (.expressions es) ts) : Slotted (.items es) ts where
  spells := .items h.spells
  slots := by
    refine h.slots.map ?_
    rintro _ ⟨_, ⟨_, rfl, hes⟩, hs⟩
    exact ⟨_, ⟨_, rfl, hes⟩, .items hs⟩

lemma moreNames {ps : List Token} (hk : name.kind = .identifier) (hc : comma.kind = .comma)
    (h : Slotted (.names ps) ts) : Slotted (.names (name :: ps)) (name :: comma :: ts) where
  spells := .moreNames hk hc h.spells
  slots := by
    refine .cons (by simp [hk]) (.cons (by simp [hc]) (h.slots.map ?_))
    rintro _ ⟨_, ⟨_, rfl, hps⟩, hs⟩
    exact ⟨_, ⟨_, rfl, .cons (.refl _) hps⟩, .moreNames hk hc hs⟩

lemma noParameters (ho : opening.kind = .leftParen) (hc : closing.kind = .rightParen) :
    Slotted (.parameters ⟨opening.line, []⟩) [opening, closing] where
  spells := .noParameters ho hc
  slots := .cons (by simp [ho]) (.single (by simp [hc]))

lemma parameters {ps : List Token} (ho : opening.kind = .leftParen)
    (hc : closing.kind = .rightParen) (hl : ps.length ≤ maxArguments) (h : Slotted (.names ps) ts) :
    Slotted (.parameters ⟨opening.line, ps⟩) (opening :: (ts ++ [closing])) where
  spells := .parameters ho hc hl h.spells
  slots := by
    refine .cons (by simp [ho]) (.append_closed (h.slots.map ?_) (.single (by simp [hc])))
    rintro _ ⟨_, ⟨_, rfl, hps⟩, hs⟩
    exact ⟨.parameters ⟨_, _⟩, ⟨_, rfl, hps⟩, .parameters ho hc (hps.length_eq ▸ hl) hs⟩

lemma getter {body : List Stmt} (ho : opening.kind = .leftBrace) (hc : closing.kind = .rightBrace)
    (h : Slotted (.declarations false body) ts) :
    Slotted (.rest none opening.line body) (opening :: (ts ++ [closing])) where
  spells := .getter ho hc h.spells
  slots := by
    refine .cons (by simp [ho]) (.append (h.slots.map ?_) (.single (by simp [hc])) (by simp [hc]))
    rintro _ ⟨_, ⟨_, rfl, hb⟩, hs⟩
    exact ⟨_, ⟨_, _, _, rfl, .none, hb⟩, .getter ho hc hs⟩

lemma rest {params : Params} {body : List Stmt} (h₁ : Slotted (.parameters params) ts)
    (h₂ : Slotted (.rest none line body) us) :
    Slotted (.rest (some params) line body) (ts ++ us) where
  spells := .rest h₁.spells h₂.spells
  slots := by
    refine .append_closed (h₁.slots.map ?_) (h₂.slots.map ?_)
    · rintro _ ⟨_, ⟨_, rfl, hps⟩, hs⟩
      exact ⟨_, ⟨_, _, _, rfl, .some hps, alikeStmts_words _⟩, .rest hs h₂.spells⟩
    · rintro _ ⟨_, ⟨_, _, _, rfl, hp', hb'⟩, hs⟩
      cases hp'
      exact ⟨_, ⟨_, _, _, rfl, .some (names_words _), hb'⟩, .rest h₁.spells hs⟩

lemma method {params : Option Params} {body : List Stmt} {ms : List (Bool × Function)}
    (hk : name.kind = .identifier) (h₁ : Slotted (.rest params line body) ts)
    (h₂ : Slotted (.members ms) us) :
    Slotted (.members ((false, .mk name params line body) :: ms)) (name :: (ts ++ us)) where
  spells := .method hk h₁.spells h₂.spells
  slots := by
    refine .cons (by simp [hk]) (.append_closed (h₁.slots.map ?_) (h₂.slots.map ?_))
    · rintro _ ⟨_, ⟨_, _, _, rfl, hp, hb⟩, hs⟩
      exact ⟨_, ⟨_, rfl, .cons (.mk (.refl _) trivial hp hb) (alikeNamed_words _)⟩,
        .method hk hs h₂.spells⟩
    · rintro _ ⟨_, ⟨_, rfl, hms'⟩, hs⟩
      exact ⟨_, ⟨_, rfl, .cons (Function.alike_words _) hms'⟩, .method hk h₁.spells hs⟩

lemma staticMember {params : Option Params} {body : List Stmt} {ms : List (Bool × Function)}
    (hw : keyword.kind = .classWord) (hk : name.kind = .identifier)
    (h₁ : Slotted (.rest params line body) ts) (h₂ : Slotted (.members ms) us) :
    Slotted (.members ((true, .mk name params line body) :: ms))
      (keyword :: name :: (ts ++ us)) where
  spells := .staticMember hw hk h₁.spells h₂.spells
  slots := by
    refine .cons (by simp [hw]) (.cons (by simp [hk])
      (.append_closed (h₁.slots.map ?_) (h₂.slots.map ?_)))
    · rintro _ ⟨_, ⟨_, _, _, rfl, hp, hb⟩, hs⟩
      exact ⟨_, ⟨_, rfl, .cons (.mk (.refl _) trivial hp hb) (alikeNamed_words _)⟩,
        .staticMember hw hk hs h₂.spells⟩
    · rintro _ ⟨_, ⟨_, rfl, hms'⟩, hs⟩
      exact ⟨_, ⟨_, rfl, .cons (Function.alike_words _) hms'⟩,
        .staticMember hw hk h₁.spells hs⟩

lemma superclass (hl : less.kind = .less) (hk : name.kind = .identifier) :
    Slotted (.superclass (some ⟨name, none⟩)) [less, name] where
  spells := .superclass hl hk
  slots := .cons (by simp [hl]) (.single (by simp [hk]))

lemma classDecl {parent : Option Reference} {ms : List (Bool × Function)}
    (hw : keyword.kind = .classWord) (hk : name.kind = .identifier) (ho : opening.kind = .leftBrace)
    (hc : closing.kind = .rightBrace) (h₁ : Slotted (.superclass parent) ts)
    (h₂ : Slotted (.members ms) us) :
    Slotted (.declaration b (.classDecl name parent opening.line
        (membersOf false ms) (membersOf true ms)))
      (keyword :: name :: (ts ++ opening :: (us ++ [closing]))) where
  spells := .classDecl hw hk ho hc h₁.spells h₂.spells
  slots := by
    refine .cons (by simp [hw]) (.cons (by simp [hk]) (.append_closed (h₁.slots.map ?_)
      (.cons (by simp [ho]) (.append_closed (h₂.slots.map ?_) (.single (by simp [hc]))))))
    · rintro _ ⟨_, ⟨_, rfl, hp'⟩, hs⟩
      exact ⟨_, ⟨_, rfl, .classDecl (.refl _) hp' (alikeMembers_words _) (alikeMembers_words _)⟩,
        .classDecl hw hk ho hc hs h₂.spells⟩
    · rintro _ ⟨_, ⟨_, rfl, hms'⟩, hs⟩
      exact ⟨_, ⟨_, rfl, .classDecl (.refl _) (optionRel_same words_reflexive.use _)
        (hms'.membersOf false) (hms'.membersOf true)⟩, .classDecl hw hk ho hc h₁.spells hs⟩

lemma function {params : Params} {body : List Stmt} (hw : keyword.kind = .funWord)
    (hk : name.kind = .identifier) (h : Slotted (.rest (some params) line body) ts) :
    Slotted (.declaration b (.function (.mk name (some params) line body)))
      (keyword :: name :: ts) where
  spells := .function hw hk h.spells
  slots := by
    refine .cons (by simp [hw]) (.cons (by simp [hk])
      (h.slots.mono (by simp [Phrase.takesElse]) ?_))
    rintro _ ⟨_, ⟨_, _, _, rfl, hp, hb⟩, hs⟩
    cases hp with
    | some hp =>
      exact ⟨_, ⟨_, rfl, .ofFunction (.mk (.refl _) trivial (.some hp) hb) (.refl _)⟩,
        .function hw hk hs⟩

lemma uninitialized (hk : name.kind = .identifier) (hs : semicolon.kind = .semicolon) :
    Slotted (.binding (.var name none)) [name, semicolon] where
  spells := .uninitialized hk hs
  slots := .cons (by simp [hk]) (.single (by simp [hs]))

lemma initialized {init : Expr} (hk : name.kind = .identifier) (hq : equals.kind = .equal)
    (hs : semicolon.kind = .semicolon) (h : Slotted (.expression .comma init) ts) :
    Slotted (.binding (.var name (some init))) (name :: equals :: (ts ++ [semicolon])) where
  spells := .initialized hk hq hs h.spells
  slots := by
    refine .cons (by simp [hk]) (.cons (by simp [hq])
      (.append_closed (h.slots.map ?_) (.single (by simp [hs]))))
    rintro _ ⟨_, ⟨_, rfl, he⟩, hes⟩
    exact ⟨_, ⟨_, rfl, .define (.refl _) he⟩, .initialized hk hq hs hes⟩

lemma variableDecl {s : Stmt} (hw : keyword.kind = .varWord) (h : Slotted (.binding s) ts) :
    Slotted (.declaration b s) (keyword :: ts) where
  spells := .variableDecl hw h.spells
  slots := by
    refine .cons (by simp [hw]) (h.slots.mono (by simp [Phrase.takesElse]) ?_)
    rintro _ ⟨_, ⟨_, rfl, hb⟩, hs⟩
    exact ⟨_, ⟨_, rfl, hb⟩, .variableDecl hw hs⟩

lemma statement {s : Stmt} (h : Slotted (.statement b o s) ts) : Slotted (.declaration b s) ts where
  spells := .statement h.spells
  slots := by
    refine h.slots.mono (fun _ => rfl) ?_
    rintro _ ⟨_, ⟨_, _, rfl, -, hb⟩, hs⟩
    exact ⟨_, ⟨_, rfl, hb⟩, .statement hs⟩

lemma expressionStatement {e : Expr} (hs : semicolon.kind = .semicolon)
    (h : Slotted (.expression .comma e) (first :: ts)) :
    Slotted (.expressionStatement (.expression first.line e)) (first :: (ts ++ [semicolon])) where
  spells := .expressionStatement hs h.spells
  slots := by
    rw [← List.cons_append]
    refine .append_closed (h.slots.map ?_) (.single (by simp [hs]))
    rintro _ ⟨_, ⟨_, rfl, he⟩, hes⟩
    obtain ⟨t, ts, rfl⟩ := List.exists_cons_of_ne_nil (hes.ne_nil Nat.one_pos)
    exact ⟨_, ⟨_, rfl, .expression he⟩, .expressionStatement hs hes⟩

lemma expression {s : Stmt} (h : Slotted (.expressionStatement s) ts) :
    Slotted (.statement b false s) ts where
  spells := .expression h.spells
  slots := by
    refine h.slots.map ?_
    rintro _ ⟨_, ⟨_, rfl, hb⟩, hs⟩
    exact ⟨_, ⟨_, _, rfl, id, hb⟩, .expression hs⟩

lemma breakLoop (hk : keyword.kind = .breakWord) (hs : semicolon.kind = .semicolon) :
    Slotted (.statement true false (.breakLoop keyword)) [keyword, semicolon] where
  spells := .breakLoop hk hs
  slots := .cons (by simp [hk]) (.single (by simp [hs]))

lemma print {e : Expr} (hk : keyword.kind = .printWord) (hs : semicolon.kind = .semicolon)
    (h : Slotted (.expression .comma e) ts) :
    Slotted (.statement b false (.print keyword e)) (keyword :: (ts ++ [semicolon])) where
  spells := .print hk hs h.spells
  slots := by
    refine .cons (by simp [hk]) (.append_closed (h.slots.map ?_) (.single (by simp [hs])))
    rintro _ ⟨_, ⟨_, rfl, he⟩, hes⟩
    exact ⟨_, ⟨_, _, rfl, id, .print (.refl _) he⟩, .print hk hs hes⟩

lemma returnValue {e : Option Expr} (hk : keyword.kind = .returnWord)
    (hs : semicolon.kind = .semicolon) (h : Slotted (.optional e) ts) :
    Slotted (.statement b false (.returnValue keyword e)) (keyword :: (ts ++ [semicolon])) where
  spells := .returnValue hk hs h.spells
  slots := by
    refine .cons (by simp [hk]) (.append_closed (h.slots.map ?_) (.single (by simp [hs])))
    rintro _ ⟨_, ⟨_, rfl, he⟩, hes⟩
    refine ⟨_, ⟨_, _, rfl, id, ?_⟩, .returnValue hk hs hes⟩
    cases he with
    | none => exact .returnNothing (.refl _)
    | some he => exact .returnValue (.refl _) he

lemma block {body : List Stmt} (ho : opening.kind = .leftBrace) (hc : closing.kind = .rightBrace)
    (h : Slotted (.declarations b body) ts) :
    Slotted (.statement b false (.block opening.line body)) (opening :: (ts ++ [closing])) where
  spells := .block ho hc h.spells
  slots := by
    refine .cons (by simp [ho]) (.append (h.slots.map ?_) (.single (by simp [hc])) (by simp [hc]))
    rintro _ ⟨_, ⟨_, rfl, hb⟩, hs⟩
    exact ⟨_, ⟨_, _, rfl, id, .block trivial hb⟩, .block ho hc hs⟩

lemma ifOnly {c : Expr} {yes : Stmt} (hk : keyword.kind = .ifWord) (ho : opening.kind = .leftParen)
    (hc : closing.kind = .rightParen) (h₁ : Slotted (.expression .comma c) ts)
    (h₂ : Slotted (.statement b o yes) us) :
    Slotted (.statement b true (.ifElse keyword c yes none))
      (keyword :: opening :: (ts ++ closing :: us)) where
  spells := .ifOnly hk ho hc h₁.spells h₂.spells
  slots := by
    refine .cons (by simp [hk]) (.cons (by simp [ho])
      (.append_closed (h₁.slots.map ?_) (.cons (by simp [hc]) (h₂.slots.mono (fun _ => rfl) ?_))))
    · rintro _ ⟨_, ⟨_, rfl, he⟩, hs⟩
      exact ⟨_, ⟨_, _, rfl, id, .ifOnly (.refl _) he (Stmt.alike_words _)⟩,
        .ifOnly hk ho hc hs h₂.spells⟩
    · rintro _ ⟨_, ⟨_, _, rfl, -, hy⟩, hs⟩
      exact ⟨_, ⟨_, _, rfl, id, .ifOnly (.refl _) (Expr.alike_words _) hy⟩,
        .ifOnly hk ho hc h₁.spells hs⟩

lemma ifElse {c : Expr} {yes no : Stmt} (hk : keyword.kind = .ifWord)
    (ho : opening.kind = .leftParen) (hc : closing.kind = .rightParen) (hw : word.kind = .elseWord)
    (h₁ : Slotted (.expression .comma c) ts) (h₂ : Slotted (.statement b false yes) us)
    (h₃ : Slotted (.statement b o no) vs) :
    Slotted (.statement b o (.ifElse keyword c yes (some no)))
      (keyword :: opening :: (ts ++ closing :: (us ++ word :: vs))) where
  spells := .ifElse hk ho hc hw h₁.spells h₂.spells h₃.spells
  slots := by
    refine .cons (by simp [hk]) (.cons (by simp [ho]) (.append_closed (h₁.slots.map ?_)
      (.cons (by simp [hc])
        (.append_closed (h₂.slots.map ?_) (.cons (by simp [hw]) (h₃.slots.map ?_))))))
    · rintro _ ⟨_, ⟨_, rfl, he⟩, hs⟩
      exact ⟨_, ⟨_, _, rfl, id, .ifElse (.refl _) he (Stmt.alike_words _) (Stmt.alike_words _)⟩,
        .ifElse hk ho hc hw hs h₂.spells h₃.spells⟩
    · rintro _ ⟨_, ⟨o', _, rfl, hclosed, hy⟩, hs⟩
      obtain rfl : o' = false := by simpa using hclosed
      exact ⟨_, ⟨_, _, rfl, id, .ifElse (.refl _) (Expr.alike_words _) hy (Stmt.alike_words _)⟩,
        .ifElse hk ho hc hw h₁.spells hs h₃.spells⟩
    · rintro _ ⟨_, ⟨_, _, rfl, hopen, hn⟩, hs⟩
      exact ⟨_, ⟨_, _, rfl, hopen, .ifElse (.refl _) (Expr.alike_words _) (Stmt.alike_words _) hn⟩,
        .ifElse hk ho hc hw h₁.spells h₂.spells hs⟩

lemma whileLoop {c : Expr} {body : Stmt} (hk : keyword.kind = .whileWord)
    (ho : opening.kind = .leftParen) (hc : closing.kind = .rightParen)
    (h₁ : Slotted (.expression .comma c) ts) (h₂ : Slotted (.statement true o body) us) :
    Slotted (.statement b o (.whileLoop keyword c body))
      (keyword :: opening :: (ts ++ closing :: us)) where
  spells := .whileLoop hk ho hc h₁.spells h₂.spells
  slots := by
    refine .cons (by simp [hk]) (.cons (by simp [ho])
      (.append_closed (h₁.slots.map ?_) (.cons (by simp [hc]) (h₂.slots.map ?_))))
    · rintro _ ⟨_, ⟨_, rfl, he⟩, hs⟩
      exact ⟨_, ⟨_, _, rfl, id, .whileLoop (words_reflexive.loop _) he (Stmt.alike_words _)⟩,
        .whileLoop hk ho hc hs h₂.spells⟩
    · rintro _ ⟨_, ⟨_, _, rfl, hopen, hb⟩, hs⟩
      exact ⟨_, ⟨_, _, rfl, hopen, .whileLoop (words_reflexive.loop _) (Expr.alike_words _) hb⟩,
        .whileLoop hk ho hc h₁.spells hs⟩

lemma forNothing (hs : semicolon.kind = .semicolon) : Slotted (.forStart none) [semicolon] where
  spells := .forNothing hs
  slots := .single (by simp [hs])

lemma forVariable {s : Stmt} (hw : keyword.kind = .varWord) (h : Slotted (.binding s) ts) :
    Slotted (.forStart (some s)) (keyword :: ts) where
  spells := .forVariable hw h.spells
  slots := by
    refine .cons (by simp [hw]) (h.slots.map ?_)
    rintro _ ⟨_, ⟨_, rfl, hb⟩, hs⟩
    exact ⟨_, ⟨_, rfl, .some hb⟩, .forVariable hw hs⟩

lemma forExpression {s : Stmt} (h : Slotted (.expressionStatement s) ts) :
    Slotted (.forStart (some s)) ts where
  spells := .forExpression h.spells
  slots := by
    refine h.slots.map ?_
    rintro _ ⟨_, ⟨_, rfl, hb⟩, hs⟩
    exact ⟨_, ⟨_, rfl, .some hb⟩, .forExpression hs⟩

lemma forLoop {start : Option Stmt} {c step : Option Expr} {body : Stmt}
    (hk : keyword.kind = .forWord) (ho : opening.kind = .leftParen)
    (hs : semicolon.kind = .semicolon) (hc : closing.kind = .rightParen)
    (h₁ : Slotted (.forStart start) ts) (h₂ : Slotted (.optional c) us)
    (h₃ : Slotted (.optional step) vs) (h₄ : Slotted (.statement true o body) ws) :
    Slotted (.statement b o (Readers.expandFor keyword start c step body))
      (keyword :: opening :: (ts ++ (us ++ semicolon :: (vs ++ closing :: ws)))) where
  spells := .forLoop hk ho hs hc h₁.spells h₂.spells h₃.spells h₄.spells
  slots := by
    let p : ForParts := ⟨keyword, opening, ts, us, semicolon, vs, closing, ws⟩
    have hp : p.Denotes o (Readers.expandFor keyword start c step body) :=
      ⟨hk, ho, hs, hc, start, c, step, body, h₁.spells, h₂.spells, h₃.spells, h₄.spells, rfl⟩
    refine .loop hp (fun ts' o' s' hs' hopen halike => ⟨_, ⟨_, _, rfl, hopen, halike⟩, hs'⟩)
      (.cons (by simp [hp.opening]) (.append_closed (h₁.slots.map ?_)
        (.append_closed (h₂.slots.map ?_)
        (.cons (by simp [hp.semicolon]) (.append_closed (h₃.slots.map ?_)
          (.cons (by simp [hp.closing]) (h₄.slots.map ?_)))))))
    · rintro _ ⟨_, ⟨_, rfl, hi'⟩, hs'⟩
      exact ⟨_, ⟨_, _, rfl, id,
          expandFor_words hi' (option_words _) (option_words _) (Stmt.alike_words _)⟩,
        .forLoop hk ho hs hc hs' h₂.spells h₃.spells h₄.spells⟩
    · rintro _ ⟨_, ⟨_, rfl, hc'⟩, hs'⟩
      exact ⟨_, ⟨_, _, rfl, id,
          expandFor_words (start_words _) hc' (option_words _) (Stmt.alike_words _)⟩,
        .forLoop hk ho hs hc h₁.spells hs' h₃.spells h₄.spells⟩
    · rintro _ ⟨_, ⟨_, rfl, hstep'⟩, hs'⟩
      exact ⟨_, ⟨_, _, rfl, id,
          expandFor_words (start_words _) (option_words _) hstep' (Stmt.alike_words _)⟩,
        .forLoop hk ho hs hc h₁.spells h₂.spells hs' h₄.spells⟩
    · rintro _ ⟨_, ⟨_, _, rfl, hopen, hb'⟩, hs'⟩
      exact ⟨_, ⟨_, _, rfl, hopen,
          expandFor_words (start_words _) (option_words _) (option_words _) hb'⟩,
        .forLoop hk ho hs hc h₁.spells h₂.spells h₃.spells hs'⟩

lemma declarations {s : Stmt} {body : List Stmt} (h₁ : Slotted (.declaration b s) ts)
    (h₂ : Slotted (.declarations b body) us) :
    Slotted (.declarations b (s :: body)) (ts ++ us) where
  spells := .declarations h₁.spells h₂.spells
  slots := by
    refine .append (h₁.slots.map ?_) (h₂.slots.map ?_)
      fun _ => ⟨h₂.spells.following_declarations.1, fun _ => rfl⟩
    · rintro _ ⟨_, ⟨_, rfl, hs'⟩, hss⟩
      exact ⟨_, ⟨_, rfl, .cons hs' (alikeStmts_words _)⟩, .declarations hss h₂.spells⟩
    · rintro _ ⟨_, ⟨_, rfl, hb'⟩, hbs⟩
      exact ⟨_, ⟨_, rfl, .cons (Stmt.alike_words _) hb'⟩, .declarations h₁.spells hbs⟩

end Slotted

end Phrase

namespace Spells

lemma slotted {φ : Phrase} {ts : List Token} (h : Spells φ ts) : φ.Slotted ts := by
  induction h with
  | pass hl _ ih => exact .pass hl ih
  | join hop _ _ ihl ihr => exact .join hop ihl ihr
  | lambda hk _ ih => exact .lambda hk ih
  | conditional hm hc hl _ _ _ ihc ihy ihn => exact .conditional hm hc hl ihc ihy ihn
  | assign hk _ _ iht ihv => exact .assign hk iht ihv
  | set hk _ _ iht ihv => exact .set hk iht ihv
  | sign hop _ ih => exact .sign hop ih
  | call ho hc hl _ _ ihc ihes => exact .call ho hc hl ihc ihes
  | get hd hn _ ih => exact .get hd hn ih
  | literal hv => exact .literal hv
  | this hk => exact .this hk
  | ref hk => exact .ref hk
  | lastName hk => exact .lastName hk
  | super hk hd hm => exact .super hk hd hm
  | grouping ho hc _ ih => exact .grouping ho hc ih
  | list ho hc _ ih => exact .list ho hc ih
  | absent => exact .absent
  | noItems => exact .noItems
  | noMembers => exact .noMembers
  | noSuperclass => exact .noSuperclass
  | noDeclarations => exact .noDeclarations
  | present _ ih => exact .present ih
  | lastExpression _ ih => exact .lastExpression ih
  | moreExpressions hc _ _ ihe ihes => exact .moreExpressions hc ihe ihes
  | items _ ih => exact .items ih
  | moreNames hk hc _ ih => exact .moreNames hk hc ih
  | noParameters ho hc => exact .noParameters ho hc
  | parameters ho hc hl _ ih => exact .parameters ho hc hl ih
  | getter ho hc _ ih => exact .getter ho hc ih
  | rest _ _ ihp ihb => exact .rest ihp ihb
  | method hk _ _ ihf ihms => exact .method hk ihf ihms
  | staticMember hw hk _ _ ihf ihms => exact .staticMember hw hk ihf ihms
  | superclass hl hk => exact .superclass hl hk
  | classDecl hw hk ho hc _ _ ihp ihms => exact .classDecl hw hk ho hc ihp ihms
  | function hw hk _ ih => exact .function hw hk ih
  | uninitialized hk hs => exact .uninitialized hk hs
  | initialized hk hq hs _ ih => exact .initialized hk hq hs ih
  | variableDecl hw _ ih => exact .variableDecl hw ih
  | statement _ ih => exact .statement ih
  | expressionStatement hs _ ih => exact .expressionStatement hs ih
  | expression _ ih => exact .expression ih
  | breakLoop hk hs => exact .breakLoop hk hs
  | print hk hs _ ih => exact .print hk hs ih
  | returnValue hk hs _ ih => exact .returnValue hk hs ih
  | block ho hc _ ih => exact .block ho hc ih
  | ifOnly hk ho hc _ _ ihc ihy => exact .ifOnly hk ho hc ihc ihy
  | ifElse hk ho hc hw _ _ _ ihc ihy ihn => exact .ifElse hk ho hc hw ihc ihy ihn
  | whileLoop hk ho hc _ _ ihc ihb => exact .whileLoop hk ho hc ihc ihb
  | forNothing hs => exact .forNothing hs
  | forVariable hw _ ih => exact .forVariable hw ih
  | forExpression _ ih => exact .forExpression ih
  | forLoop hk ho hs hc _ _ _ _ ihi ihc ihstep ihb => exact .forLoop hk ho hs hc ihi ihc ihstep ihb
  | declarations _ _ ihs ihb => exact .declarations ihs ihb

variable {b b' o o' : Bool} {s s' : Stmt} {ts ts' rest rest' : List Token}

theorem statement_unique (h : Spells (.statement b o s) ts) (h' : Spells (.statement b' o' s') ts')
    (hall : ts ++ rest = ts' ++ rest') (hend : EndsStatement o rest)
    (hend' : EndsStatement o' rest') : ts = ts' ∧ s = s' := by
  let n := ts.length + ts'.length
  let c : Cursor := ⟨ts ++ rest, default, Scan.finishAt ⟨1, 1⟩, []⟩
  have hr := (Readers.areComplete_nested n).statement true o s ts h.inLoop (by omega)
  have hr' := (Readers.areComplete_nested n).statement true o' s' ts' h'.inLoop (by omega)
  obtain ⟨d, hd, -, hrest⟩ := hr c rest rfl rfl hend
  obtain ⟨d', hd', -, hrest'⟩ := hr' c rest' hall rfl hend'
  rw [hd] at hd'
  obtain ⟨rfl, rfl⟩ := EStateM.Result.ok.inj hd'
  obtain rfl : rest = rest' := hrest.symm.trans hrest'
  exact ⟨List.append_cancel_right hall, rfl⟩

theorem takesElse_of_takesElse (h : Spells (.statement b o s) ts)
    (h' : Spells (.statement b' o' s') ts) (ho : o = true) : o' = true := by
  by_contra hclosed
  rw [Bool.not_eq_true] at hclosed
  subst hclosed
  have hblock : Spells (.statement true false (.block 0 []))
      [ofKind .leftBrace, ofKind .rightBrace] :=
    .block (kind_ofKind .leftBrace) (kind_ofKind .rightBrace) .noDeclarations
  obtain ⟨o'', s'', hs⟩ := h.inLoop.absorb_else (kind_ofKind .elseWord) ho hblock
  -- The first reading goes past the `else`, the second stops before it.
  have hlonger := (hs.statement_unique h' (List.append_nil _) (by simp [EndsStatement])
    (by simp [EndsStatement])).1
  simp at hlonger

theorem declarations_whileForm {body : List Stmt} (h : Spells (.declarations b body) ts)
    {before rest : List Token} {p : ForParts} (hts : ts = before ++ (p.tokens ++ rest))
    (hp : p.Denotes o s) (hend : EndsStatement o rest) :
    ∃ body', Spells (.declarations b body') (before ++ (p.whileForm ++ rest)) ∧
      AlikeStmts words () body body' := by
  obtain ⟨q, rest', b', o', s', htokens, hq, hend', -, hreplace⟩ :=
    h.slotted.slots before p.keyword (p.tokens.tail ++ rest) hts hp.keyword
  have hall : p.tokens ++ rest = q.tokens ++ rest' := htokens
  obtain ⟨hsame, rfl⟩ := (hp.statement b').statement_unique (hq.statement b') hall hend hend'
  rw [hsame] at hall
  obtain rfl : rest = rest' := List.append_cancel_left hall
  obtain ⟨o'', s', hopen, hs, halike⟩ := hp.whileForm b'
  have hopen' : o'' = true → o' = true := fun h => (hp.statement b').takesElse_of_takesElse
    (hsame ▸ hq.statement b') (hopen h)
  obtain ⟨_, ⟨body', rfl, hbody⟩, hspells⟩ := hreplace _ o'' s' hs hopen' halike
  exact ⟨body', hspells, hbody⟩

end Spells

/-! The reader of statements. -/

namespace Readers

open Reader

variable {n : Nat} {b o : Bool} {c d : Cursor} {s : Stmt} {ts : List Token} {p : ForParts}

theorem exists_denotes (h : (nested n).statement b c = .ok s d) (hf : c.finish.kind = .finish)
    (hk : following c.rest = .forWord) (hr : d.reports = c.reports) :
    ∃ (p : ForParts) (o : Bool), c.rest = p.tokens ++ d.rest ∧ p.Denotes o s ∧
      EndsStatement o d.rest := by
  have hread := (areSound_nested n).statement b c hf trivial
  rw [h] at hread
  obtain ⟨ts, new, hpass, hnew⟩ := hread
  have hnone : new = [] := List.self_eq_append_right.mp (hr.symm.trans hpass.reports)
  obtain ⟨o, hs, hend⟩ := hnew hnone
  have hts : following ts = .forWord := by
    rwa [hpass.rest, following_append (hs.ne_nil Nat.one_pos)] at hk
  obtain ⟨p, rfl, hp⟩ := ForParts.exists_of_statement hs hts
  exact ⟨p, o, hpass.rest, hp, hend⟩

theorem reads_whileForm (hp : p.Denotes o s) (hts : List.Forall₂ Token.SameWord p.whileForm ts)
    (hn : ts.length ≤ n) (b : Bool) :
    ∃ s', s.Alike words () s' ∧ Reads ((nested n).statement b) ts s' (EndsStatement o) := by
  obtain ⟨o', s', hopen, hs, halike⟩ := hp.whileForm b
  obtain ⟨_, ⟨s'', rfl, halike'⟩, hs'⟩ := hs.alike Token.interchangeable_sameWord words_covers hts
  have hreads := (areComplete_nested n).statement b o' s'' ts hs' hn
  exact ⟨s'', halike.trans s s' s'' halike', hreads.mono fun rest hend ho => hend (hopen ho)⟩

end Readers

end Lox
