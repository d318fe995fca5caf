import Lox.Proofs.Syntax.WellFormed

namespace Lox

variable {T : Token → Prop}

mutual

def Expr.Sourced (T : Token → Prop) : Expr → Prop
  | .literal _ _ => True
  | .ref target => T target.name
  | .assign target value _ => T target.name ∧ value.Sourced T
  | .get object name => T name ∧ object.Sourced T
  | .set object name value _ => T name ∧ object.Sourced T ∧ value.Sourced T
  | .conditional condition _ yes no => condition.Sourced T ∧ yes.Sourced T ∧ no.Sourced T
  | .lambda function => function.Sourced T
  | .comma left _ right => left.Sourced T ∧ right.Sourced T
  | .binary left op right => T op ∧ left.Sourced T ∧ right.Sourced T
  | .logical left _ right => left.Sourced T ∧ right.Sourced T
  | .unary op operand => T op ∧ operand.Sourced T
  | .call callee paren arguments =>
    (T callee.firstToken ∧ T paren) ∧ callee.Sourced T ∧ allSourcedExpr T arguments
  | .this target => T target.name
  | .super _ method => T method
  | .grouping _ inner => inner.Sourced T
  | .list _ elements => allSourcedExpr T elements
  | .invalid _ => True

def allSourcedExpr (T : Token → Prop) : List Expr → Prop
  | [] => True
  | e :: more => e.Sourced T ∧ allSourcedExpr T more

def Stmt.Sourced (T : Token → Prop) : Stmt → Prop
  | .expression _ value => value.Sourced T
  | .print _ value => value.Sourced T
  | .var _ none => True
  | .var _ (some init) => init.Sourced T
  | .block _ body => allSourced T body
  | .ifElse _ condition yes none => condition.Sourced T ∧ yes.Sourced T
  | .ifElse _ condition yes (some no) => condition.Sourced T ∧ yes.Sourced T ∧ no.Sourced T
  | .whileLoop _ condition body => condition.Sourced T ∧ body.Sourced T
  | .breakLoop _ => True
  | .returnValue _ none => True
  | .returnValue _ (some value) => value.Sourced T
  | .function function => function.Sourced T
  | .classDecl _ superclass _ methods statics =>
    (∀ parent ∈ superclass, T parent.name) ∧ allSourcedMember T methods ∧ allSourcedMember T statics
  | .invalid _ => True

def allSourced (T : Token → Prop) : List Stmt → Prop
  | [] => True
  | s :: more => s.Sourced T ∧ allSourced T more

def Function.Sourced (T : Token → Prop) : Function → Prop
  | .mk _ _ _ body => allSourced T body

def allSourcedMember (T : Token → Prop) : List Function → Prop
  | [] => True
  | f :: more => f.Sourced T ∧ allSourcedMember T more

end

lemma allSourcedMember_membersOf {isStatic : Bool} {ms : List (Bool × Function)}
    (h : ∀ m ∈ ms, m.2.Sourced T) : allSourcedMember T (membersOf isStatic ms) := by
  induction ms with
  | nil => exact trivial
  | cons m ms ih =>
    have hmore := ih fun n hn => h n (List.mem_cons_of_mem _ hn)
    unfold membersOf at hmore ⊢
    rw [List.filterMap_cons]
    split
    · exact hmore
    · next f hf =>
      have hm : m.2 = f := by
        split at hf <;> simp_all
      exact ⟨hm ▸ h m List.mem_cons_self, hmore⟩

def Expr.Begins (T : Token → Prop) (e : Expr) : Prop := e.Sourced T ∧ T e.firstToken

def Stmt.Begins (T : Token → Prop) (s : Stmt) : Prop := s.Sourced T ∧ ∀ t ∈ s.firstToken?, T t

def Phrase.Sourced (T : Token → Prop) : Phrase → Prop
  | expression _ e => e.Begins T
  | optional e => ∀ x ∈ e, x.Begins T
  | expressions es => allSourcedExpr T es
  | items es => allSourcedExpr T es
  | rest _ _ body => allSourced T body
  | members ms => ∀ m ∈ ms, m.2.Sourced T
  | superclass parent => ∀ p ∈ parent, T p.name
  | binding s | expressionStatement s | statement _ _ s | declaration _ s => s.Begins T
  | forStart s => ∀ x ∈ s, x.Begins T
  | declarations _ body => ∀ s ∈ body, s.Begins T
  | names _ | parameters _ => True

lemma allSourced_of_begins {body : List Stmt} (h : ∀ s ∈ body, s.Begins T) : allSourced T body := by
  induction body with
  | nil => exact trivial
  | cons s body ih =>
    have hall := List.forall_mem_cons.mp h
    exact ⟨hall.1.1, ih hall.2⟩

lemma firstTokenOf?_of_begins {body : List Stmt} (h : ∀ s ∈ body, s.Begins T) :
    ∀ t ∈ firstTokenOf? body, T t := by
  induction body with
  | nil => exact fun t ht => nomatch ht
  | cons s body ih =>
    have hall := List.forall_mem_cons.mp h
    intro t ht
    rw [firstTokenOf?, Option.mem_def, Option.or_eq_some_iff] at ht
    rcases ht with ht | ⟨-, ht⟩
    · exact hall.1.2 t ht
    · exact ih hall.2 t ht

lemma Stmt.begins_block {line : Nat} {body : List Stmt} (h : ∀ s ∈ body, s.Begins T) :
    (Stmt.block line body).Begins T :=
  ⟨allSourced_of_begins h, firstTokenOf?_of_begins h⟩

lemma Level.begins_join {level : Level} {l r : Expr} {op : Token} (hop : T op) (hl : l.Begins T)
    (hr : r.Begins T) : (level.join l op r).Begins T := by
  cases level with
  | comma | or | and => exact ⟨⟨hl.1, hr.1⟩, hl.2⟩
  | _ => exact ⟨⟨hop, hl.1, hr.1⟩, hl.2⟩

lemma expandFor_begins {keyword : Token} {start : Option Stmt} {c step : Option Expr}
    {body : Stmt} (hkeyword : T keyword) (hstart : ∀ s ∈ start, s.Begins T)
    (hc : ∀ e ∈ c, e.Begins T) (hstep : ∀ e ∈ step, e.Begins T) (hbody : body.Begins T) :
    (Readers.expandFor keyword start c step body).Begins T := by
  have hcondition : (c.getD (Readers.alwaysTrue keyword)).Sourced T := by
    cases c with
    | none => exact trivial
    | some e => exact (hc e rfl).1
  have hloop {body : Stmt} (hbody : body.Sourced T) :
      (Stmt.whileLoop keyword (c.getD (Readers.alwaysTrue keyword)) body).Begins T := by
    refine ⟨⟨hcondition, hbody⟩, ?_⟩
    rintro _ ⟨⟩
    exact hkeyword
  have hblock {first loop : Stmt} (hfirst : first.Begins T) (hloop : loop.Begins T) :
      (Stmt.block keyword.line [first, loop]).Begins T :=
    Stmt.begins_block (List.forall_mem_cons.mpr ⟨hfirst, List.forall_mem_singleton.mpr hloop⟩)
  cases step with
  | none =>
    cases start with
    | none => exact hloop hbody.1
    | some first => exact hblock (hstart first rfl) (hloop hbody.1)
  | some step =>
    have hturn : (Stmt.block keyword.line [body, .expression keyword.line step]).Sourced T :=
      ⟨hbody.1, (hstep step rfl).1, trivial⟩
    cases start with
    | none => exact hloop hturn
    | some first => exact hblock (hstart first rfl) (hloop hturn)

theorem Spells.sourced {φ : Phrase} {ts : List Token} (h : Spells φ ts) (hts : ∀ t ∈ ts, T t) :
    φ.Sourced T := by
  have hfirst {s : Stmt} {t : Token} (hs : s.Sourced T) (hfirst : s.firstToken? = some t)
      (ht : T t) : s.Begins T := by
    refine ⟨hs, fun t' ht' => ?_⟩
    rw [hfirst] at ht'
    exact Option.some.inj ht' ▸ ht
  induction h <;> try simp only [List.forall_mem_append, List.forall_mem_cons] at hts
  case pass ih => exact ih hts
  case join ihl ihr => exact Level.begins_join hts.2.1 (ihl hts.1) (ihr hts.2.2)
  case lambda ih => exact ⟨ih hts.2, hts.1⟩
  case conditional ihc ihy ihn =>
    have hc := ihc hts.1
    exact ⟨⟨hc.1, (ihy hts.2.2.1).1, (ihn hts.2.2.2.2).1⟩, hc.2⟩
  case assign iht ihv =>
    have htarget := iht hts.1
    exact ⟨⟨htarget.1, (ihv hts.2.2).1⟩, htarget.2⟩
  case set iht ihv =>
    have htarget := iht hts.1
    exact ⟨⟨htarget.1.1, htarget.1.2, (ihv hts.2.2).1⟩, htarget.2⟩
  case sign ih => exact ⟨⟨hts.1, (ih hts.2).1⟩, hts.1⟩
  case call ihc ihes =>
    have hcallee := ihc hts.1
    exact ⟨⟨⟨hcallee.2, hts.2.2.2.1⟩, hcallee.1, ihes hts.2.2.1⟩, hcallee.2⟩
  case get ih =>
    have hobject := ih hts.1
    exact ⟨⟨hts.2.2.1, hobject.1⟩, hobject.2⟩
  case literal => exact ⟨trivial, hts.1⟩
  case this => exact ⟨hts.1, hts.1⟩
  case ref => exact ⟨hts.1, hts.1⟩
  case super => exact ⟨hts.2.2.1, hts.1⟩
  case grouping ih => exact ⟨(ih hts.2.1).1, hts.1⟩
  case list ih => exact ⟨ih hts.2.1, hts.1⟩
  case absent => exact fun _ he => nomatch he
  case present ih =>
    rintro _ ⟨⟩
    exact ih hts
  case lastExpression ih => exact ⟨(ih hts).1, trivial⟩
  case moreExpressions ihe ihes => exact ⟨(ihe hts.1).1, ihes hts.2.2⟩
  case noItems => exact trivial
  case items ih => exact ih hts
  case lastName | moreNames | noParameters | parameters => exact trivial
  case getter ih => exact allSourced_of_begins (ih hts.2.1)
  case rest ihb => exact ihb hts.2
  case noMembers => exact fun _ hm => absurd hm List.not_mem_nil
  case method ihf ihms => exact List.forall_mem_cons.mpr ⟨ihf hts.2.1, ihms hts.2.2⟩
  case staticMember ihf ihms => exact List.forall_mem_cons.mpr ⟨ihf hts.2.2.1, ihms hts.2.2.2⟩
  case noSuperclass => exact fun _ hp => nomatch hp
  case superclass =>
    rintro _ ⟨⟩
    exact hts.2.1
  case classDecl ihp ihms =>
    have hms := ihms hts.2.2.2.2.1
    exact hfirst ⟨ihp hts.2.2.1, allSourcedMember_membersOf hms, allSourcedMember_membersOf hms⟩ rfl
      hts.2.1
  case function ih => exact hfirst (s := .function _) (ih hts.2.2) rfl hts.2.1
  case uninitialized => exact hfirst (s := .var _ none) trivial rfl hts.1
  case initialized ih => exact hfirst (s := .var _ (some _)) (ih hts.2.2.1).1 rfl hts.1
  case variableDecl ih => exact ih hts.2
  case statement ih => exact ih hts
  case expressionStatement ih =>
    have he := ih (List.forall_mem_cons.mpr ⟨hts.1, hts.2.1⟩)
    exact hfirst (s := .expression _ _) he.1 rfl he.2
  case expression ih => exact ih hts
  case breakLoop => exact hfirst (s := .breakLoop _) trivial rfl hts.1
  case print ih => exact hfirst (s := .print _ _) (ih hts.2.1).1 rfl hts.1
  case returnValue e _ _ _ _ ih =>
    cases e with
    | none => exact hfirst (s := .returnValue _ none) trivial rfl hts.1
    | some e => exact hfirst (s := .returnValue _ (some e)) (ih hts.2.1 e rfl).1 rfl hts.1
  case block ih => exact Stmt.begins_block (ih hts.2.1)
  case ifOnly ihc ihy =>
    exact hfirst (s := .ifElse _ _ _ none) ⟨(ihc hts.2.2.1).1, (ihy hts.2.2.2.2).1⟩ rfl hts.1
  case ifElse ihc ihy ihn =>
    exact hfirst (s := .ifElse _ _ _ (some _))
      ⟨(ihc hts.2.2.1).1, (ihy hts.2.2.2.2.1).1, (ihn hts.2.2.2.2.2.2).1⟩ rfl hts.1
  case whileLoop ihc ihb =>
    exact hfirst (s := .whileLoop _ _ _) ⟨(ihc hts.2.2.1).1, (ihb hts.2.2.2.2).1⟩ rfl hts.1
  case forNothing => exact fun _ hs => nomatch hs
  case forVariable ih =>
    rintro _ ⟨⟩
    exact ih hts.2
  case forExpression ih =>
    rintro _ ⟨⟩
    exact ih hts
  case forLoop ihi ihc ihs ihb =>
    exact expandFor_begins hts.1 (ihi hts.2.2.1) (ihc hts.2.2.2.1) (ihs hts.2.2.2.2.2.1)
      (ihb hts.2.2.2.2.2.2.2)
  case noDeclarations => exact fun _ hs => absurd hs List.not_mem_nil
  case declarations ihs ih => exact List.forall_mem_cons.mpr ⟨ihs hts.1, ih hts.2⟩

end Lox
