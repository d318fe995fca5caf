import Lox.Proofs.Grammar.Phrase
import Lox.Proofs.Grammar.Sound
import Lox.Proofs.Token.Word
import Lox.Program

namespace Lox

namespace Token

def IsName (t : Token) : Prop :=
  t.kind = .identifier ∧ t.lexeme ≠ "this" ∧ t.lexeme ≠ "super"

def IsScanned (t : Token) : Prop := t.kind.isWord = true → t.kind = Kind.ofWord t.lexeme

lemma IsScanned.isName {t : Token} (h : t.IsScanned) (hk : t.kind = .identifier) : t.IsName := by
  have hw : t.kind = Kind.ofWord t.lexeme := h (by rw [hk]; rfl)
  rw [hk] at hw
  refine ⟨hk, fun hl => ?_, fun hl => ?_⟩ <;> rw [hl] at hw <;> exact absurd hw (by decide)

lemma IsScanned.mem_keywords {t : Token} (h : t.IsScanned) (hk : t.kind.isWord = true)
    (hn : t.kind ≠ .identifier) : (t.lexeme, t.kind) ∈ Kind.keywords := by
  have hw := h hk
  unfold Kind.ofWord at hw
  cases hl : Kind.keywords.lookup t.lexeme with
  | none =>
    rw [hl] at hw
    exact absurd hw hn
  | some k =>
    rw [hl] at hw
    obtain ⟨before, after, hkeywords, -⟩ := List.lookup_eq_some_iff.mp hl
    rw [hkeywords, hw]
    exact List.mem_append_right _ List.mem_cons_self

lemma IsScanned.this {t : Token} (h : t.IsScanned) (hk : t.kind = .thisWord) :
    t.lexeme = "this" := by
  have hm := h.mem_keywords (by rw [hk]; rfl) (by simp [hk])
  simpa [Kind.keywords, hk] using hm

lemma IsScanned.super {t : Token} (h : t.IsScanned) (hk : t.kind = .superWord) :
    t.lexeme = "super" := by
  have hm := h.mem_keywords (by rw [hk]; rfl) (by simp [hk])
  simpa [Kind.keywords, hk] using hm

end Token

def Reference.IsFresh (r : Reference) : Prop := r.depth = none

mutual

def Stmt.breaks : Stmt → Bool
  | .breakLoop _ => true
  | .block _ body => anyBreaks body
  | .ifElse _ _ yes none => yes.breaks
  | .ifElse _ _ yes (some no) => yes.breaks || no.breaks
  | _ => false

def anyBreaks : List Stmt → Bool
  | [] => false
  | s :: more => s.breaks || anyBreaks more

end

def Stmt.declares : Stmt → Bool
  | .var _ _ => true
  | .function _ => true
  | .classDecl _ _ _ _ _ => true
  | .ifElse _ _ yes none => yes.declares
  | .ifElse _ _ yes (some no) => yes.declares || no.declares
  | .whileLoop _ _ body => body.declares
  | _ => false

def binaryOperators : List Kind :=
  [.bangEqual, .equalEqual, .greater, .greaterEqual, .less, .lessEqual, .minus, .plus, .slash,
    .star, .percent]

mutual

def Expr.WellFormed : Expr → Prop
  | .literal _ _ => True
  | .ref target => target.IsFresh ∧ target.name.IsName
  | .assign target value _ => target.IsFresh ∧ target.name.IsName ∧ value.WellFormed
  | .get object name => object.WellFormed ∧ name.IsName
  | .set object name value _ => object.WellFormed ∧ name.IsName ∧ value.WellFormed
  | .conditional condition _ yes no => condition.WellFormed ∧ yes.WellFormed ∧ no.WellFormed
  | .lambda function => function.WellFormed
  | .comma left _ right => left.WellFormed ∧ right.WellFormed
  | .binary left op right => op.kind ∈ binaryOperators ∧ left.WellFormed ∧ right.WellFormed
  | .logical left op right =>
    op.kind ∈ [.orWord, .andWord] ∧ left.WellFormed ∧ right.WellFormed
  | .unary op operand => op.kind ∈ [.bang, .minus] ∧ operand.WellFormed
  | .call callee _ arguments => callee.WellFormed ∧ allWellFormedExpr arguments
  | .this target => target.IsFresh ∧ target.name.lexeme = "this"
  | .super target method => target.IsFresh ∧ target.name.lexeme = "super" ∧ method.IsName
  | .grouping _ inner => inner.WellFormed
  | .list _ elements => allWellFormedExpr elements
  | .invalid _ => False

def allWellFormedExpr : List Expr → Prop
  | [] => True
  | e :: more => e.WellFormed ∧ allWellFormedExpr more

def Stmt.WellFormed : Stmt → Prop
  | .expression _ value => value.WellFormed
  | .print _ value => value.WellFormed
  | .var name none => name.IsName
  | .var name (some init) => name.IsName ∧ init.WellFormed
  | .block _ body => allWellFormed body
  | .ifElse _ condition yes none =>
    condition.WellFormed ∧ yes.WellFormed ∧ yes.declares = false
  | .ifElse _ condition yes (some no) =>
    condition.WellFormed ∧ (yes.WellFormed ∧ yes.declares = false) ∧
      no.WellFormed ∧ no.declares = false
  | .whileLoop _ condition body =>
    condition.WellFormed ∧ body.WellFormed ∧ body.declares = false
  | .breakLoop _ => True
  | .returnValue _ none => True
  | .returnValue _ (some value) => value.WellFormed
  | .function function => function.head.IsName ∧ function.WellFormed
  | .classDecl name superclass _ methods statics =>
    name.IsName ∧ (∀ parent ∈ superclass, parent.IsFresh ∧ parent.name.IsName) ∧
      allWellFormedMember methods ∧ allWellFormedMember statics
  | .invalid _ => False

def allWellFormed : List Stmt → Prop
  | [] => True
  | s :: more => s.WellFormed ∧ allWellFormed more

def Function.WellFormed : Function → Prop
  | .mk _ params _ body =>
    (∀ ps ∈ params, ∀ param ∈ ps.names, param.IsName) ∧ allWellFormed body ∧
      anyBreaks body = false

def allWellFormedMember : List Function → Prop
  | [] => True
  | f :: more => f.WellFormed ∧ allWellFormedMember more

end

lemma allWellFormedMember_membersOf {isStatic : Bool} {ms : List (Bool × Function)}
    (h : ∀ m ∈ ms, m.2.WellFormed) : allWellFormedMember (membersOf isStatic ms) := by
  induction ms with
  | nil => exact trivial
  | cons m ms ih =>
    have hmore := ih fun n hn => h n (List.mem_cons_of_mem _ hn)
    unfold membersOf at hmore ⊢
    rw [List.filterMap_cons]
    split
    · exact hmore
    · next f hf =>
      have hm : m.2 = f := by
        split at hf <;> simp_all
      exact ⟨hm ▸ h m List.mem_cons_self, hmore⟩

def Phrase.WellFormed : Phrase → Prop
  | expression _ e => e.WellFormed
  | optional e => ∀ x ∈ e, x.WellFormed
  | expressions es => allWellFormedExpr es
  | items es => allWellFormedExpr es
  | names ps => ∀ p ∈ ps, p.IsName
  | parameters ps => ∀ p ∈ ps.names, p.IsName
  | rest params _ body =>
    (∀ ps ∈ params, ∀ p ∈ ps.names, p.IsName) ∧ allWellFormed body ∧ anyBreaks body = false
  | members ms => ∀ m ∈ ms, m.2.WellFormed
  | superclass parent => ∀ p ∈ parent, p.IsFresh ∧ p.name.IsName
  | binding s => s.WellFormed ∧ s.breaks = false
  | expressionStatement s => s.WellFormed ∧ s.breaks = false ∧ s.declares = false
  | forStart s => ∀ x ∈ s, x.WellFormed ∧ x.breaks = false
  | statement inLoop _ s =>
    s.WellFormed ∧ s.declares = false ∧ (inLoop = false → s.breaks = false)
  | declaration inLoop s => s.WellFormed ∧ (inLoop = false → s.breaks = false)
  | declarations inLoop body => allWellFormed body ∧ (inLoop = false → anyBreaks body = false)

lemma Level.wellFormed_join {level : Level} {l r : Expr} {op : Token}
    (hop : op.kind ∈ level.ops) (hl : l.WellFormed) (hr : r.WellFormed) :
    (level.join l op r).WellFormed := by
  have hbinary : ∀ level ∈ [Level.equality, .comparison, .sum, .product],
      level.ops ⊆ binaryOperators := by decide
  cases level with
  | comma => exact ⟨hl, hr⟩
  | or | and =>
    have hlogical : op.kind ∈ [.orWord, .andWord] := by simp_all [Level.ops]
    exact ⟨hlogical, hl, hr⟩
  | equality | comparison | sum | product =>
    have hbinary := hbinary _ (by decide) hop
    exact ⟨hbinary, hl, hr⟩
  | _ => cases hop

lemma expandFor_wellFormed {keyword : Token} {start : Option Stmt} {c step : Option Expr}
    {body : Stmt} (hstart : ∀ s ∈ start, s.WellFormed ∧ s.breaks = false)
    (hc : ∀ e ∈ c, e.WellFormed) (hstep : ∀ e ∈ step, e.WellFormed)
    (hbody : body.WellFormed ∧ body.declares = false) :
    let s := Readers.expandFor keyword start c step body
    s.WellFormed ∧ s.declares = false ∧ s.breaks = false := by
  have hcondition : (c.getD (Readers.alwaysTrue keyword)).WellFormed := by
    cases c with
    | none => exact trivial
    | some e => exact hc e rfl
  cases step with
  | none =>
    cases start with
    | none => exact ⟨⟨hcondition, hbody⟩, hbody.2, rfl⟩
    | some first =>
      have hfirst := hstart first rfl
      refine ⟨⟨hfirst.1, ⟨hcondition, hbody⟩, trivial⟩, rfl, ?_⟩
      simp [Readers.expandFor, Stmt.breaks, anyBreaks, hfirst.2]
  | some step =>
    have hblock : (Stmt.block keyword.line [body, .expression keyword.line step]).WellFormed ∧
        (Stmt.block keyword.line [body, .expression keyword.line step]).declares = false :=
      ⟨⟨hbody.1, hstep step rfl, trivial⟩, rfl⟩
    cases start with
    | none => exact ⟨⟨hcondition, hblock⟩, rfl, rfl⟩
    | some first =>
      have hfirst := hstart first rfl
      refine ⟨⟨hfirst.1, ⟨hcondition, hblock⟩, trivial⟩, rfl, ?_⟩
      simp [Readers.expandFor, Stmt.breaks, anyBreaks, hfirst.2]

theorem Spells.wellFormed {φ : Phrase} {ts : List Token} (h : Spells φ ts)
    (hts : ∀ t ∈ ts, t.IsScanned) : φ.WellFormed := by
  induction h <;> try simp only [List.forall_mem_append, List.forall_mem_cons] at hts
  case pass ih => exact ih hts
  case join hop _ _ ihl ihr => exact Level.wellFormed_join hop (ihl hts.1) (ihr hts.2.2)
  case lambda ih =>
    obtain ⟨hps, hbody, hbreaks⟩ := ih hts.2
    exact ⟨hps, hbody, hbreaks⟩
  case conditional ihc ihy ihn => exact ⟨ihc hts.1, ihy hts.2.2.1, ihn hts.2.2.2.2⟩
  case assign iht ihv =>
    obtain ⟨hfresh, hname⟩ := iht hts.1
    exact ⟨hfresh, hname, ihv hts.2.2⟩
  case set iht ihv =>
    obtain ⟨hobject, hname⟩ := iht hts.1
    exact ⟨hobject, hname, ihv hts.2.2⟩
  case sign hop _ ih => exact ⟨hop, ih hts.2⟩
  case call ihc ihes => exact ⟨ihc hts.1, ihes hts.2.2.1⟩
  case get hn _ ih => exact ⟨ih hts.1, hts.2.2.1.isName hn⟩
  case literal => exact trivial
  case this hk => exact ⟨rfl, hts.1.this hk⟩
  case ref hk => exact ⟨rfl, hts.1.isName hk⟩
  case super hk _ hm => exact ⟨rfl, hts.1.super hk, hts.2.2.1.isName hm⟩
  case grouping ih => exact ih hts.2.1
  case list ih => exact ih hts.2.1
  case absent => exact fun _ he => nomatch he
  case present ih =>
    rintro _ ⟨⟩
    exact ih hts
  case lastExpression ih => exact ⟨ih hts, trivial⟩
  case moreExpressions ihe ihes => exact ⟨ihe hts.1, ihes hts.2.2⟩
  case noItems => exact trivial
  case items ih => exact ih hts
  case lastName hn => exact fun p hp => List.mem_singleton.mp hp ▸ hts.1.isName hn
  case moreNames hn _ _ ih =>
    exact List.forall_mem_cons.mpr ⟨hts.1.isName hn, ih hts.2.2⟩
  case noParameters => exact fun _ hp => absurd hp List.not_mem_nil
  case parameters ih => exact ih hts.2.1
  case getter ih =>
    obtain ⟨hbody, hbreaks⟩ := ih hts.2.1
    exact ⟨(fun _ hp => nomatch hp), hbody, hbreaks rfl⟩
  case rest ihp ihb =>
    refine ⟨?_, (ihb hts.2).2⟩
    rintro _ ⟨⟩
    exact ihp hts.1
  case noMembers => exact fun _ hm => absurd hm List.not_mem_nil
  case method ihf ihms => exact List.forall_mem_cons.mpr ⟨ihf hts.2.1, ihms hts.2.2⟩
  case staticMember ihf ihms => exact List.forall_mem_cons.mpr ⟨ihf hts.2.2.1, ihms hts.2.2.2⟩
  case noSuperclass => exact fun _ hp => nomatch hp
  case superclass hn =>
    rintro _ ⟨⟩
    exact ⟨rfl, hts.2.1.isName hn⟩
  case classDecl hn _ _ _ _ ihp ihms =>
    have hms := ihms hts.2.2.2.2.1
    exact ⟨⟨hts.2.1.isName hn, ihp hts.2.2.1, allWellFormedMember_membersOf hms,
      allWellFormedMember_membersOf hms⟩, fun _ => rfl⟩
  case function hn _ ih =>
    obtain ⟨hps, hbody, hbreaks⟩ := ih hts.2.2
    exact ⟨⟨hts.2.1.isName hn, hps, hbody, hbreaks⟩, fun _ => rfl⟩
  case uninitialized hn _ => exact ⟨hts.1.isName hn, rfl⟩
  case initialized hn _ _ _ ih => exact ⟨⟨hts.1.isName hn, ih hts.2.2.1⟩, rfl⟩
  case variableDecl ih => exact ⟨(ih hts.2).1, fun _ => (ih hts.2).2⟩
  case statement ih => exact ⟨(ih hts).1, (ih hts).2.2⟩
  case expressionStatement ih =>
    exact ⟨ih (List.forall_mem_cons.mpr ⟨hts.1, hts.2.1⟩), rfl, rfl⟩
  case expression ih => exact ⟨(ih hts).1, (ih hts).2.2, fun _ => (ih hts).2.1⟩
  case breakLoop => exact ⟨trivial, rfl, fun hf => nomatch hf⟩
  case print ih => exact ⟨ih hts.2.1, rfl, fun _ => rfl⟩
  case returnValue e _ _ _ _ ih =>
    cases e with
    | none => exact ⟨trivial, rfl, fun _ => rfl⟩
    | some e => exact ⟨ih hts.2.1 e rfl, rfl, fun _ => rfl⟩
  case block ih => exact ⟨(ih hts.2.1).1, rfl, (ih hts.2.1).2⟩
  case ifOnly ihc ihy =>
    obtain ⟨hyes, hdeclares, hbreaks⟩ := ihy hts.2.2.2.2
    exact ⟨⟨ihc hts.2.2.1, hyes, hdeclares⟩, hdeclares, hbreaks⟩
  case ifElse ihc ihy ihn =>
    obtain ⟨hyes, hdeclares, hbreaks⟩ := ihy hts.2.2.2.2.1
    obtain ⟨hno, hdeclares', hbreaks'⟩ := ihn hts.2.2.2.2.2.2
    refine ⟨⟨ihc hts.2.2.1, ⟨hyes, hdeclares⟩, hno, hdeclares'⟩, ?_, fun hb => ?_⟩
    · simp [Stmt.declares, hdeclares, hdeclares']
    · simp [Stmt.breaks, hbreaks hb, hbreaks' hb]
  case whileLoop ihc ihb =>
    obtain ⟨hbody, hdeclares, -⟩ := ihb hts.2.2.2.2
    exact ⟨⟨ihc hts.2.2.1, hbody, hdeclares⟩, hdeclares, fun _ => rfl⟩
  case forNothing => exact fun _ hs => nomatch hs
  case forVariable ih =>
    rintro _ ⟨⟩
    exact ih hts.2
  case forExpression ih =>
    rintro _ ⟨⟩
    exact ⟨(ih hts).1, (ih hts).2.1⟩
  case forLoop ihi ihc ihs ihb =>
    obtain ⟨hbody, hdeclares, -⟩ := ihb hts.2.2.2.2.2.2.2
    obtain ⟨hwell, hdeclares', hbreaks⟩ := expandFor_wellFormed (ihi hts.2.2.1)
      (ihc hts.2.2.2.1) (ihs hts.2.2.2.2.2.1) ⟨hbody, hdeclares⟩
    exact ⟨hwell, hdeclares', fun _ => hbreaks⟩
  case noDeclarations => exact ⟨trivial, fun _ => rfl⟩
  case declarations ihs ih =>
    obtain ⟨hs, hbreaks⟩ := ihs hts.1
    obtain ⟨hbody, hbreaks'⟩ := ih hts.2
    exact ⟨⟨hs, hbody⟩, fun hb => by simp [anyBreaks, hbreaks hb, hbreaks' hb]⟩

namespace Program

variable {source : String}

lemma isError_of_mem_diagnostics {d : Diagnostic} (h : d ∈ (Scan.ofString source).diagnostics) :
    d.isError = true := by
  obtain ⟨⟨p, shape, text⟩, -, hd⟩ := List.mem_filterMap.mp h
  cases shape <;> cases hd <;> rfl

theorem spells_of_sound (h : (ofSource source).hasError = false) :
    (Scan.ofString source).diagnostics = [] ∧
      Spells (.declarations false (ofSource source).body) (Scan.ofString source).tokens := by
  have hnone : ∀ d ∈ (ofSource source).diagnostics, d.isError = true → False := by
    intro d hd herror
    have hsome : (ofSource source).hasError = true := List.any_eq_true.mpr ⟨d, hd, herror⟩
    rw [h] at hsome
    cases hsome
  have hf : (Scan.ofString source).finish.kind = .finish := rfl
  refine ⟨List.eq_nil_iff_forall_not_mem.mpr fun d hd => ?_, Grammar.spells_of_program hf ?_⟩
  · exact hnone d (List.mem_append_left _ hd) (isError_of_mem_diagnostics hd)
  · refine List.eq_nil_iff_forall_not_mem.mpr fun d hd => ?_
    exact hnone d (List.mem_append_right _ hd) (Grammar.isError_of_mem_reports hf hd)

lemma spells_body (h : (ofSource source).hasError = false) :
    Spells (.declarations false (ofSource source).body) (Scan.ofString source).tokens :=
  (spells_of_sound h).2

theorem wellFormed (h : (ofSource source).hasError = false) :
    allWellFormed (ofSource source).body ∧ anyBreaks (ofSource source).body = false := by
  have hscanned : ∀ t ∈ (Scan.ofString source).tokens, t.IsScanned :=
    fun t ht hk => Scan.kind_of_mem_tokens ht hk
  have hbody := (spells_body h).wellFormed hscanned
  exact ⟨hbody.1, hbody.2 rfl⟩

end Program

end Lox
