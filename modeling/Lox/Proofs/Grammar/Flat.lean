import Mathlib.Data.List.Forall2
import Lox.Proofs.Grammar.Phrase
import Lox.Proofs.Syntax.Flat

/-! The tokens of what is read are the tokens that it is read from, as long as there is no loop
among them that the tree writes in another way, and no class. -/

namespace Lox

abbrev Rendered : List Token → List Token → Prop := List.Forall₂ Token.Renders

namespace Rendered

variable {ts us vs ws : List Token} {t : Token}

lemma append (h : Rendered ts us) (h' : Rendered vs ws) : Rendered (ts ++ vs) (us ++ ws) :=
  List.rel_append h h'

lemma keep (h : Rendered ts us) : Rendered (t :: ts) (t :: us) := .cons (.refl t) h

lemma ofKind {k : Kind} (ht : t.kind = k) (hk : k.text?.isSome) (h : Rendered ts us) :
    Rendered (.ofKind k :: ts) (t :: us) :=
  .cons (Token.renders_ofKind ht hk) h

lemma closed {k : Kind} (h : Rendered ts us) (ht : t.kind = k) (hk : k.text?.isSome) :
    Rendered (ts ++ [.ofKind k]) (us ++ [t]) :=
  h.append (.ofKind ht hk .nil)

end Rendered

def IsPlain (ts : List Token) : Prop := ∀ t ∈ ts, t.kind ∉ [.forWord, .classWord]

lemma isPlain_append {ts us : List Token} : IsPlain (ts ++ us) ↔ IsPlain ts ∧ IsPlain us := by
  simp only [IsPlain, List.forall_mem_append]

lemma isPlain_cons {t : Token} {ts : List Token} :
    IsPlain (t :: ts) ↔ t.kind ∉ [.forWord, .classWord] ∧ IsPlain ts := by
  simp only [IsPlain, List.forall_mem_cons]

def restTokens (params : Option Params) (body : List Stmt) : List Token :=
  (params.map Params.tokens).getD [] ++
    .ofKind .leftBrace :: (bodyTokens body ++ [.ofKind .rightBrace])

def Phrase.Renders : Phrase → List Token → Prop
  | expression _ e, ts => Rendered e.tokens ts
  | optional e, ts => Rendered ((e.map Expr.tokens).getD []) ts
  | expressions es, ts | items es, ts => Rendered (listTokens es) ts
  | names ps, ts => Rendered (Token.listed ps) ts
  | parameters ps, ts => Rendered ps.tokens ts
  | rest params _ body, ts => Rendered (restTokens params body) ts
  | binding s, ts => ∀ keyword : Token, keyword.kind = .varWord → Rendered s.tokens (keyword :: ts)
  | expressionStatement s, ts | statement _ _ s, ts | declaration _ s, ts => Rendered s.tokens ts
  | declarations _ body, ts => Rendered (bodyTokens body) ts
  | members _, _ | superclass _, _ | forStart _, _ => True

lemma tokens_join (level : Level) (l r : Expr) (op : Token) :
    (level.join l op r).tokens = l.tokens ++ op :: r.tokens := by
  cases level <;> rfl

lemma Spells.names_ne_nil {ps ts : List Token} (h : Spells (.names ps) ts) : ps ≠ [] := by
  cases h <;> simp

lemma Spells.expressions_ne_nil {es : List Expr} {ts : List Token}
    (h : Spells (.expressions es) ts) : es ≠ [] := by
  cases h <;> simp

lemma Token.listed_cons {name : Token} {ps : List Token} (h : ps ≠ []) :
    Token.listed (name :: ps) = name :: .ofKind .comma :: Token.listed ps := by
  cases ps with
  | nil => contradiction
  | cons => rfl

lemma listTokens_cons {e : Expr} {es : List Expr} (h : es ≠ []) :
    listTokens (e :: es) = e.tokens ++ .ofKind .comma :: listTokens es := by
  cases es with
  | nil => contradiction
  | cons => rfl

theorem Spells.renders {φ : Phrase} {ts : List Token} (h : Spells φ ts) (hts : IsPlain ts) :
    φ.Renders ts := by
  induction h with
  | pass _ _ ih => exact ih hts
  | join _ _ _ ihl ihr =>
    obtain ⟨hl, hr⟩ := isPlain_append.mp hts
    simp only [Phrase.Renders, tokens_join]
    exact (ihl hl).append (.keep (ihr (isPlain_cons.mp hr).2))
  | lambda _ _ ih => exact .keep (ih (isPlain_cons.mp hts).2)
  | conditional _ hcolon _ _ _ _ ihc ihy ihn =>
    simp only [isPlain_append, isPlain_cons] at hts
    obtain ⟨hc, -, hy, -, hn⟩ := hts
    exact (ihc hc).append (.keep ((ihy hy).append (.ofKind hcolon rfl (ihn hn))))
  | assign hequals _ _ iht ihv =>
    simp only [isPlain_append, isPlain_cons] at hts
    exact (iht hts.1).append (.ofKind hequals rfl (ihv hts.2.2))
  | @set object name _ _ _ _ hequals _ _ iht ihv =>
    simp only [isPlain_append, isPlain_cons] at hts
    have htokens := (iht hts.1).append (.ofKind hequals rfl (ihv hts.2.2))
    simpa [Phrase.Renders, Expr.tokens] using htokens
  | sign _ _ ih => exact .keep (ih (isPlain_cons.mp hts).2)
  | call hopening hclosing _ _ _ ihc ihi =>
    simp only [isPlain_append, isPlain_cons] at hts
    exact (ihc hts.1).append (.ofKind hopening rfl ((ihi hts.2.2.1).append (.keep .nil)))
  | get hdot _ _ ih =>
    exact (ih (isPlain_append.mp hts).1).append (.ofKind hdot rfl (.keep .nil))
  | literal _ | this _ | ref _ => exact .keep .nil
  | super _ hdot _ => exact .keep (.ofKind hdot rfl (.keep .nil))
  | grouping _ hclosing _ ih | list _ hclosing _ ih =>
    simp only [isPlain_append, isPlain_cons] at hts
    exact .keep ((ih hts.2.1).closed hclosing rfl)
  | absent | noItems => exact .nil
  | present _ ih | lastExpression _ ih | items _ ih => exact ih hts
  | moreExpressions hcomma _ hes ihe ihes =>
    simp only [isPlain_append, isPlain_cons] at hts
    simp only [Phrase.Renders, listTokens_cons hes.expressions_ne_nil]
    exact (ihe hts.1).append (.ofKind hcomma rfl (ihes hts.2.2))
  | lastName _ => exact .keep .nil
  | moreNames _ hcomma hps ih =>
    simp only [isPlain_cons] at hts
    simp only [Phrase.Renders, Token.listed_cons hps.names_ne_nil]
    exact .keep (.ofKind hcomma rfl (ih hts.2.2))
  | noParameters hopening hclosing => exact .ofKind hopening rfl (.ofKind hclosing rfl .nil)
  | parameters hopening hclosing _ _ ih =>
    simp only [isPlain_append, isPlain_cons] at hts
    exact .ofKind hopening rfl ((ih hts.2.1).closed hclosing rfl)
  | getter hopening hclosing _ ih =>
    simp only [isPlain_append, isPlain_cons] at hts
    exact .ofKind hopening rfl ((ih hts.2.1).closed hclosing rfl)
  | rest _ _ ihp ihr =>
    obtain ⟨hp, hr⟩ := isPlain_append.mp hts
    exact (ihp hp).append (ihr hr)
  | noMembers | method | staticMember | noSuperclass | superclass | forNothing | forVariable
  | forExpression => trivial
  | classDecl hk => simp [isPlain_cons, hk] at hts
  | function hk _ _ ih =>
    simp only [isPlain_cons] at hts
    exact .ofKind hk rfl (.keep (ih hts.2.2))
  | uninitialized _ hsemicolon =>
    intro keyword hk
    exact .ofKind hk rfl (.keep (.ofKind hsemicolon rfl .nil))
  | initialized _ hequals hsemicolon _ ih =>
    intro keyword hk
    simp only [isPlain_append, isPlain_cons] at hts
    exact .ofKind hk rfl (.keep (.ofKind hequals rfl ((ih hts.2.2.1).closed hsemicolon rfl)))
  | variableDecl hk _ ih => exact ih (isPlain_cons.mp hts).2 _ hk
  | statement _ ih | expression _ ih => exact ih hts
  | expressionStatement hsemicolon _ ih =>
    rw [← List.cons_append, isPlain_append] at hts
    exact (ih hts.1).closed hsemicolon rfl
  | breakLoop _ hsemicolon => exact .keep (.ofKind hsemicolon rfl .nil)
  | print _ hsemicolon _ ih =>
    simp only [isPlain_append, isPlain_cons] at hts
    exact .keep ((ih hts.2.1).closed hsemicolon rfl)
  | @returnValue _ _ _ e _ _ hsemicolon _ ih =>
    simp only [isPlain_append, isPlain_cons] at hts
    have htokens := (ih hts.2.1).closed hsemicolon rfl
    cases e with
    | none => exact .keep htokens
    | some e => exact .keep htokens
  | block hopening hclosing _ ih =>
    simp only [isPlain_append, isPlain_cons] at hts
    exact .ofKind hopening rfl ((ih hts.2.1).closed hclosing rfl)
  | ifOnly _ hopening hclosing _ _ ihc ihy =>
    simp only [isPlain_append, isPlain_cons] at hts
    obtain ⟨-, -, hc, -, hy⟩ := hts
    exact .keep (.ofKind hopening rfl ((ihc hc).append (.ofKind hclosing rfl (ihy hy))))
  | ifElse _ hopening hclosing hword _ _ _ ihc ihy ihn =>
    simp only [isPlain_append, isPlain_cons] at hts
    obtain ⟨-, -, hc, -, hy, -, hn⟩ := hts
    exact .keep (.ofKind hopening rfl ((ihc hc).append (.ofKind hclosing rfl
      ((ihy hy).append (.ofKind hword rfl (ihn hn))))))
  | whileLoop _ hopening hclosing _ _ ihc ihb =>
    simp only [isPlain_append, isPlain_cons] at hts
    obtain ⟨-, -, hc, -, hb⟩ := hts
    exact .keep (.ofKind hopening rfl ((ihc hc).append (.ofKind hclosing rfl (ihb hb))))
  | forLoop hk => simp [isPlain_cons, hk] at hts
  | noDeclarations => exact .nil
  | declarations _ _ ihs ihb =>
    obtain ⟨hs, hb⟩ := isPlain_append.mp hts
    exact (ihs hs).append (ihb hb)

end Lox
