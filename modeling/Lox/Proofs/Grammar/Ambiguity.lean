import Lox.Proofs.Grammar.Following

/-! The tokens of a phrase are those that the grammar derives. Where the grammar leaves open to
which phrase a mark or an `else` belongs, it can belong to the innermost. -/

namespace Lox

def Phrase.Derived : Phrase → List Kind → Prop
  | expression level e, w => Derives (.expression level e.assignee) w
  | optional _, w => ∃ s, Derives (.optional (.expression .comma s)) w
  | expressions es, w => Derives (.expressions es.length) w
  | items es, w => ∃ count ≤ es.length, Derives (.optional (.expressions count)) w
  | names ps, w => Derives (.names ps.length) w
  | parameters _, w => Derives .parameters w
  | rest none _ _, w => Derives .body w
  | rest (some _) _ _, w => ∃ u v, w = u ++ v ∧ Derives .parameters u ∧ Derives .body v
  | members _, w => Derives (.many .classMember) w
  | superclass _, w => Derives (.optional .superclass) w
  | binding _, w => Derives .variable (.varWord :: w)
  | expressionStatement _, w => Derives .expressionStatement w
  | forStart _, w => Derives .forStart w
  | statement b _ _, w => Derives (.statement b) w
  | declaration b _, w => Derives (.declaration b) w
  | declarations b _, w => Derives (.many (.declaration b)) w

lemma Derives.member_of_rest {params : Option Params} {line : Nat}
    {body : List Stmt} {w : List Kind} (h : (Phrase.rest params line body).Derived w) :
    Derives .member (.identifier :: w) := by
  cases params with
  | none => simpa using Derives.member .absent h
  | some params =>
    obtain ⟨u, v, rfl, hu, hv⟩ := h
    exact .member (.present hu) hv

@[simp] lemma Level.assignee_join {level : Level} {l r : Expr} {op : Token} :
    (level.join l op r).assignee = .other := by
  cases level <;> rfl

lemma Token.kind_mem_constants {t : Token} {value : Literal} (h : t.literal? = some value) :
    t.kind ∈ constants := by
  unfold literal? at h
  split at h <;> simp_all [constants]

lemma Spells.derived {φ : Phrase} {ts : List Token} (h : Spells φ ts) :
    φ.Derived (ts.map Token.kind) := by
  induction h with
  | pass hl _ ih => exact .pass hl ih
  | @join level l r op _ _ hop _ _ hl hr =>
    simpa [Phrase.Derived] using Derives.join hop hl hr
  | lambda hk _ ih =>
    obtain ⟨u, v, hw, hu, hv⟩ := ih
    simpa [Phrase.Derived, Expr.assignee, hk, hw] using Derives.lambda hu hv
  | conditional hm hc _ _ _ _ ihc ihy ihn =>
    simpa [Phrase.Derived, Expr.assignee, hm, hc] using Derives.conditional ihc ihy ihn
  | assign hk _ _ iht ihv | set hk _ _ iht ihv =>
    simpa [Phrase.Derived, Expr.assignee, hk] using Derives.assign (by simp [Expr.assignee]) iht ihv
  | sign hop _ ih => exact .sign hop ih
  | call ho hc hle _ _ ihc ihes =>
    obtain ⟨count, hcount, hes⟩ := ihes
    simpa [Phrase.Derived, Expr.assignee, ho, hc] using Derives.call (Nat.le_trans hcount hle) ihc hes
  | get hd hn _ ih => simpa [Phrase.Derived, Expr.assignee, hd, hn] using Derives.property ih
  | literal hl => exact .constant (Token.kind_mem_constants hl)
  | this hk => exact .constant (by simp [hk, constants])
  | ref hk => simpa [Phrase.Derived, Expr.assignee, hk] using Derives.name
  | super hk hd hm => simpa [Phrase.Derived, Expr.assignee, hk, hd, hm] using Derives.super
  | grouping ho hc _ ih => simpa [Phrase.Derived, Expr.assignee, ho, hc] using Derives.grouping ih
  | list ho hc _ ih =>
    obtain ⟨count, -, hes⟩ := ih
    simpa [Phrase.Derived, Expr.assignee, ho, hc] using Derives.list hes
  | absent => exact ⟨.other, .absent⟩
  | present _ ih => exact ⟨_, .present ih⟩
  | lastExpression _ ih => exact .lastExpression ih
  | moreExpressions hk _ _ ihe ihes =>
    simpa [Phrase.Derived, hk] using Derives.moreExpressions ihe ihes
  | noItems => exact ⟨0, Nat.zero_le _, .absent⟩
  | items _ ih => exact ⟨_, Nat.le_refl _, .present ih⟩
  | lastName hn => simpa [Phrase.Derived, hn] using Derives.lastName
  | moreNames hn hk _ ih => simpa [Phrase.Derived, hn, hk] using Derives.moreNames ih
  | noParameters ho hc =>
    simpa [Phrase.Derived, ho, hc] using Derives.parameters (Nat.zero_le _) .absent
  | parameters ho hc hle _ ih =>
    simpa [Phrase.Derived, ho, hc] using Derives.parameters hle (.present ih)
  | getter ho hc _ ih => simpa [Phrase.Derived, ho, hc] using Derives.body ih
  | rest _ _ ihp ihb => exact ⟨_, _, List.map_append, ihp, ihb⟩
  | noMembers | noDeclarations => exact .none
  | method hn _ _ ihf ihms =>
    simpa [Phrase.Derived, hn] using Derives.more (.method (.member_of_rest ihf)) ihms
  | staticMember hk hn _ _ ihf ihms =>
    simpa [Phrase.Derived, hk, hn] using Derives.more (.staticMember (.member_of_rest ihf)) ihms
  | noSuperclass => exact .absent
  | superclass hl hn => simpa [Phrase.Derived, hl, hn] using Derives.present .superclass
  | classDecl hk hn ho hc _ _ ihp ihms =>
    simpa [Phrase.Derived, hk, hn, ho, hc] using Derives.classDecl ihp ihms
  | function hk hn _ ih =>
    obtain ⟨u, v, hw, hu, hv⟩ := ih
    simpa [Phrase.Derived, hk, hn, hw] using Derives.function hu hv
  | uninitialized hn hs => simpa [Phrase.Derived, hn, hs] using Derives.uninitialized
  | initialized hn hk hs _ ih => simpa [Phrase.Derived, hn, hk, hs] using Derives.initialized ih
  | variableDecl hk _ ih => simpa [Phrase.Derived, hk] using Derives.variableDecl ih
  | statement _ ih => exact .statement ih
  | expressionStatement hs _ ih => simpa [Phrase.Derived, hs] using Derives.expressionStatement ih
  | expression _ ih => exact .expression ih
  | breakLoop hk hs => simpa [Phrase.Derived, hk, hs] using Derives.breakLoop
  | print hk hs _ ih => simpa [Phrase.Derived, hk, hs] using Derives.print ih
  | returnValue hk hs _ ih =>
    obtain ⟨s, he⟩ := ih
    simpa [Phrase.Derived, hk, hs] using Derives.returnValue he
  | block ho hc _ ih => simpa [Phrase.Derived, ho, hc] using Derives.block ih
  | ifOnly hk ho hc _ _ ihc ihy => simpa [Phrase.Derived, hk, ho, hc] using Derives.ifOnly ihc ihy
  | ifElse hk ho hc hw _ _ _ ihc ihy ihn =>
    simpa [Phrase.Derived, hk, ho, hc, hw] using Derives.ifElse ihc ihy ihn
  | whileLoop hk ho hc _ _ ihc ihb =>
    simpa [Phrase.Derived, hk, ho, hc] using Derives.whileLoop ihc ihb
  | forNothing hk => simpa [Phrase.Derived, hk] using Derives.forStart
  | forVariable hk _ ih => simpa [Phrase.Derived, hk] using Derives.forVariable ih
  | forExpression _ ih => exact .forExpression ih
  | forLoop hk ho hs hc _ _ _ _ ihi ihc ihs ihb =>
    obtain ⟨s, hcondition⟩ := ihc
    obtain ⟨t, hstep⟩ := ihs
    simpa [Phrase.Derived, hk, ho, hs, hc] using Derives.forLoop ihi hcondition hstep ihb
  | declarations _ _ ihs ih => simpa [Phrase.Derived] using Derives.more ihs ih

/-! A mark after an expression that takes one. -/

namespace Expr

def marked : Expr → Token → Expr → Expr → Expr
  | .assign target value line, mark, yes, no =>
    if value.takesMark then .assign target (value.marked mark yes no) line
    else .conditional (.assign target value line) mark yes no
  | .set object name value line, mark, yes, no =>
    if value.takesMark then .set object name (value.marked mark yes no) line
    else .conditional (.set object name value line) mark yes no
  | .conditional condition mark' yes' no', mark, yes, no =>
    .conditional condition mark' yes' (no'.marked mark yes no)
  | e, mark, yes, no => .conditional e mark yes no

theorem marked_of_isTight {e : Expr} (h : e.isTight = true) (mark : Token) (yes no : Expr) :
    e.marked mark yes no = .conditional e mark yes no := by
  cases e <;> first | rfl | cases h

lemma assignee_marked (e : Expr) (mark : Token) (yes no : Expr) :
    (e.marked mark yes no).assignee = .other := by
  unfold marked
  split <;> try split
  all_goals rfl

end Expr

section Mark

variable {level : Level} {e yes no : Expr} {mark colon : Token} {ts us vs : List Token}

theorem Spells.absorb_mark (hm : mark.kind = .question) (hc : colon.kind = .colon)
    (hyes : Spells (.expression .comma yes) us) (hno : Spells (.expression .ternary no) vs)
    (h : Spells (.expression level e) ts) (hlevel : level = .ternary ∨ level = .assignment)
    (he : e.takesMark = true) :
    Spells (.expression .ternary (e.marked mark yes no)) (ts ++ mark :: (us ++ colon :: vs)) := by
  generalize hφ : Phrase.expression level e = φ at h
  induction h generalizing level e with
  | @pass _ _ _ _ h ih =>
    obtain ⟨rfl, rfl⟩ := Phrase.expression.inj hφ
    obtain rfl | rfl := hlevel
    · exact ih (.inr rfl) he rfl
    · rw [Expr.marked_of_isTight (h.isTight (by decide))]
      exact .conditional hm hc (h.leavesMark (by decide)) (.pass (by simp) h) hyes hno
  | join hop =>
    obtain ⟨rfl, rfl⟩ := Phrase.expression.inj hφ
    obtain rfl | rfl := hlevel <;> simp [Level.ops] at hop
  | lambda =>
    cases hφ
    simp [Expr.takesMark] at he
  | conditional hm' hc' hl hcond hyes' _ _ _ ih =>
    cases hφ
    have hlast := ih (.inl rfl) (by simpa [Expr.takesMark] using he) rfl
    rw [Expr.marked]
    simpa using Spells.conditional hm' hc' hl hcond hyes' hlast
  | @assign target value equals _ _ hk ht hv _ ih =>
    cases hφ
    rw [Expr.marked]
    split
    · next hvalue =>
      have hassign : Spells (.expression (Level.next .ternary) _) _ :=
        .assign hk ht (ih (.inl rfl) hvalue rfl)
      simpa using hassign.pass (by simp)
    · next hvalue =>
      exact .conditional hm hc (by simpa [Expr.leavesMark] using hvalue) (.assign hk ht hv) hyes hno
  | @set object name value equals _ _ hk ht hv _ ih =>
    cases hφ
    rw [Expr.marked]
    split
    · next hvalue =>
      have hset : Spells (.expression (Level.next .ternary) _) _ :=
        .set hk ht (ih (.inl rfl) hvalue rfl)
      simpa using hset.pass (by simp)
    · next hvalue =>
      exact .conditional hm hc (by simpa [Expr.leavesMark] using hvalue) (.set hk ht hv) hyes hno
  | _ =>
    cases hφ
    try simp at hlevel

end Mark

/-! An `else` after a statement that takes one. -/

def Phrase.inLoop : Phrase → Phrase
  | statement _ o s => statement true o s
  | declaration _ s => declaration true s
  | declarations _ body => declarations true body
  | φ => φ

lemma Spells.inLoop {φ : Phrase} {ts : List Token} (h : Spells φ ts) : Spells φ.inLoop ts := by
  have h' := h
  induction h with
  | classDecl hk hn ho hc hp hms => exact .classDecl hk hn ho hc hp hms
  | function hk hn hf => exact .function hk hn hf
  | variableDecl hk hs => exact .variableDecl hk hs
  | statement hs ih => exact .statement (ih hs)
  | expression he => exact .expression he
  | breakLoop hk hs => exact .breakLoop hk hs
  | print hk hs he => exact .print hk hs he
  | returnValue hk hs he => exact .returnValue hk hs he
  | block ho hc hb ih => exact .block ho hc (ih hb)
  | ifOnly hk ho hp hc hs _ ih => exact .ifOnly hk ho hp hc (ih hs)
  | ifElse hk ho hp hw hc hy hn _ ihy ihn => exact .ifElse hk ho hp hw hc (ihy hy) (ihn hn)
  | whileLoop hk ho hp hc hb => exact .whileLoop hk ho hp hc hb
  | forLoop hk ho hs hp hi hc hstep hb => exact .forLoop hk ho hs hp hi hc hstep hb
  | noDeclarations => exact .noDeclarations
  | declarations hs hb ihs ih => exact .declarations (ihs hs) (ih hb)
  | _ => exact h'

theorem Spells.absorb_else {word : Token} (hw : word.kind = .elseWord) {b o o' : Bool}
    {s no : Stmt} {ts vs : List Token} (h : Spells (.statement b o s) ts) (ho : o = true)
    (hno : Spells (.statement b o' no) vs) :
    ∃ o'' s', Spells (.statement b o'' s') (ts ++ word :: vs) := by
  generalize hφ : Phrase.statement b o s = φ at h
  induction h generalizing b o s with
  | @ifOnly _ o₁ _ _ _ _ _ _ _ hk hp hc hcond hyes _ ih =>
    cases hφ
    cases o₁
    · exact ⟨o', _, by simpa using Spells.ifElse hk hp hc hw hcond hyes hno⟩
    · obtain ⟨o'', s', hs⟩ := ih rfl hno rfl
      exact ⟨true, _, by simpa using Spells.ifOnly hk hp hc hcond hs⟩
  | ifElse hk hp hc hw' hcond hyes _ _ _ ih =>
    cases hφ
    obtain ⟨o'', s', hs⟩ := ih ho hno rfl
    exact ⟨o'', _, by simpa using Spells.ifElse hk hp hc hw' hcond hyes hs⟩
  | whileLoop hk hp hc hcond _ _ ih =>
    cases hφ
    obtain ⟨o'', s', hs⟩ := ih ho hno.inLoop rfl
    exact ⟨o'', _, by simpa using Spells.whileLoop hk hp hc hcond hs⟩
  | forLoop hk hp hs hc hi hcond hstep _ _ _ _ ih =>
    cases hφ
    obtain ⟨o'', s', hs'⟩ := ih ho hno.inLoop rfl
    exact ⟨o'', _, by simpa using Spells.forLoop hk hp hs hc hi hcond hstep hs'⟩
  | _ =>
    cases hφ
    try cases ho

/-! From derivations to phrases. -/

def Symbol.Spelled : Symbol → List Token → Prop
  | expression level a, ts => ∃ e : Expr, e.assignee = a ∧ Spells (.expression level e) ts
  | expressions count, ts => ∃ es, es.length = count ∧ Spells (.expressions es) ts
  | names count, ts => ∃ ps, ps.length = count ∧ Spells (.names ps) ts
  | parameters, ts => ∃ ps, Spells (.parameters ps) ts
  | body, ts => ∃ line body, Spells (.rest none line body) ts
  | member, ts => ∃ name us params line body, ts = name :: us ∧ name.kind = .identifier ∧
      Spells (.rest params line body) us
  | classMember, ts => ∃ m, ∀ ms us, Spells (.members ms) us → Spells (.members (m :: ms)) (ts ++ us)
  | superclass, ts => ∃ parent, Spells (.superclass parent) ts
  | .variable, ts => ∃ keyword us s, ts = keyword :: us ∧ keyword.kind = .varWord ∧
      Spells (.binding s) us
  | expressionStatement, ts => ∃ s, Spells (.expressionStatement s) ts
  | forStart, ts => ∃ s, Spells (.forStart s) ts
  | statement b, ts => ∃ o s, Spells (.statement b o s) ts
  | declaration b, ts => ∃ s, Spells (.declaration b s) ts
  | optional s, ts => ts = [] ∨ s.Spelled ts
  | many s, ts => ∃ parts : List (List Token), ts = parts.flatten ∧ ∀ us ∈ parts, s.Spelled us
  | program, ts => ∃ us last body, ts = us ++ [last] ∧ last.kind = .finish ∧
      Spells (.declarations false body) us

lemma Symbol.spelled_items {count : Nat} {ts : List Token}
    (h : (Symbol.optional (.expressions count)).Spelled ts) :
    ∃ es, es.length ≤ count ∧ Spells (.items es) ts := by
  obtain rfl | ⟨es, hlength, hes⟩ := h
  · exact ⟨[], Nat.zero_le _, .noItems⟩
  · exact ⟨es, Nat.le_of_eq hlength, .items hes⟩

lemma Symbol.spelled_optional {a : Assignee} {ts : List Token}
    (h : (Symbol.optional (.expression .comma a)).Spelled ts) : ∃ e, Spells (.optional e) ts := by
  obtain rfl | ⟨e, -, he⟩ := h
  · exact ⟨none, .absent⟩
  · exact ⟨some e, .present he⟩

lemma Symbol.spelled_declarations {b : Bool} {ts : List Token}
    (h : (Symbol.many (.declaration b)).Spelled ts) :
    ∃ body, Spells (.declarations b body) ts := by
  obtain ⟨parts, rfl, hparts⟩ := h
  induction parts with
  | nil => exact ⟨[], .noDeclarations⟩
  | cons us parts ih =>
    obtain ⟨s, hs⟩ := hparts us (by simp)
    obtain ⟨body, hbody⟩ := ih fun us hus => hparts us (by simp [hus])
    exact ⟨s :: body, .declarations hs hbody⟩

lemma Symbol.spelled_members {ts : List Token} (h : (Symbol.many .classMember).Spelled ts) :
    ∃ ms, Spells (.members ms) ts := by
  obtain ⟨parts, rfl, hparts⟩ := h
  induction parts with
  | nil => exact ⟨[], .noMembers⟩
  | cons us parts ih =>
    obtain ⟨m, hm⟩ := hparts us (by simp)
    obtain ⟨ms, hms⟩ := ih fun us hus => hparts us (by simp [hus])
    exact ⟨m :: ms, hm ms _ hms⟩

lemma Token.exists_literal {t : Token} (h : t.kind ∈ constants) (ht : t.kind ≠ .thisWord) :
    ∃ value, t.literal? = some value := by
  simp only [constants, List.mem_cons, List.not_mem_nil, or_false] at h
  rcases h with h | h | h | h | h | h <;> simp_all [literal?]

section Split

variable {ts : List Token} {v w : List Kind} {j k : Kind}

lemma exists_around (h : ts.map Token.kind = v ++ k :: w) :
    ∃ us t vs, ts = us ++ t :: vs ∧ us.map Token.kind = v ∧ t.kind = k ∧
      vs.map Token.kind = w := by
  obtain ⟨us, _, rfl, hus, hts⟩ := List.map_eq_append_iff.mp h
  obtain ⟨t, vs, rfl, ht, hvs⟩ := List.map_eq_cons_iff.mp hts
  exact ⟨us, t, vs, rfl, hus, ht, hvs⟩

lemma exists_before (h : ts.map Token.kind = v ++ [k]) :
    ∃ us t, ts = us ++ [t] ∧ us.map Token.kind = v ∧ t.kind = k := by
  obtain ⟨us, t, vs, rfl, hus, ht, hvs⟩ := exists_around h
  obtain rfl := List.map_eq_nil_iff.mp hvs
  exact ⟨us, t, rfl, hus, ht⟩

lemma exists_between (h : ts.map Token.kind = j :: (v ++ [k])) :
    ∃ t us t', ts = t :: (us ++ [t']) ∧ t.kind = j ∧ us.map Token.kind = v ∧ t'.kind = k := by
  obtain ⟨t, _, rfl, ht, hts⟩ := List.map_eq_cons_iff.mp h
  obtain ⟨us, t', rfl, hus, ht'⟩ := exists_before hts
  exact ⟨t, us, t', rfl, ht, hus, ht'⟩

end Split

/-- All tokens of these kinds spell something that the symbol stands for. -/
def Symbol.Yields (s : Symbol) (w : List Kind) : Prop :=
  ∀ ts : List Token, ts.map Token.kind = w → s.Spelled ts

namespace Symbol.Yields

variable {level : Level} {b : Bool} {count : Nat} {v w x : List Kind}

lemma absent {s : Symbol} : Yields (.optional s) [] :=
  fun _ hts => .inl (List.map_eq_nil_iff.mp hts)

lemma present {s : Symbol} (h : Yields s w) : Yields (.optional s) w :=
  fun ts hts => .inr (h ts hts)

lemma none {s : Symbol} : Yields (.many s) [] :=
  fun ts hts => ⟨[], List.map_eq_nil_iff.mp hts, by simp⟩

lemma more {s : Symbol} (h₁ : Yields s v) (h₂ : Yields (.many s) w) :
    Yields (.many s) (v ++ w) := by
  intro ts hts
  obtain ⟨us, vs, rfl, hus, hvs⟩ := List.map_eq_append_iff.mp hts
  obtain ⟨parts, rfl, hparts⟩ := h₂ vs hvs
  exact ⟨us :: parts, rfl, by simpa using ⟨h₁ us hus, hparts⟩⟩

lemma pass {assignee : Assignee} (hl : level ≠ .primary)
    (h : Yields (.expression level.next assignee) w) : Yields (.expression level assignee) w := by
  intro ts hts
  obtain ⟨e, he, hspells⟩ := h ts hts
  exact ⟨e, he, hspells.pass hl⟩

lemma join {l r : Assignee} {op : Kind} (hop : op ∈ level.ops) (h₁ : Yields (.expression level l) v)
    (h₂ : Yields (.expression level.next r) w) :
    Yields (.expression level .other) (v ++ op :: w) := by
  intro ts hts
  obtain ⟨us, op, vs, rfl, hus, rfl, hws⟩ := exists_around hts
  obtain ⟨l, -, hl⟩ := h₁ us hus
  obtain ⟨r, -, hr⟩ := h₂ vs hws
  exact ⟨_, Level.assignee_join, .join hop hl hr⟩

lemma lambda (h₁ : Yields .parameters v) (h₂ : Yields .body w) :
    Yields (.expression .ternary .other) (.funWord :: (v ++ w)) := by
  intro ts hts
  obtain ⟨keyword, _, rfl, hk, hts⟩ := List.map_eq_cons_iff.mp hts
  obtain ⟨us, vs, rfl, hus, hvs⟩ := List.map_eq_append_iff.mp hts
  obtain ⟨ps, hps⟩ := h₁ us hus
  obtain ⟨line, body, hbody⟩ := h₂ vs hvs
  exact ⟨_, rfl, .lambda hk (.rest hps hbody)⟩

lemma conditional {s t u : Assignee} (h₁ : Yields (.expression .assignment s) v)
    (h₂ : Yields (.expression .comma t) w) (h₃ : Yields (.expression .ternary u) x) :
    Yields (.expression .ternary .other) (v ++ .question :: (w ++ .colon :: x)) := by
  intro ts hts
  obtain ⟨us, mark, _, rfl, hus, hm, hts⟩ := exists_around hts
  obtain ⟨vs, colon, ws, rfl, hvs, hc, hws⟩ := exists_around hts
  obtain ⟨c, -, hcond⟩ := h₁ us hus
  obtain ⟨yes, -, hyes⟩ := h₂ vs hvs
  obtain ⟨no, -, hno⟩ := h₃ ws hws
  exact ⟨_, c.assignee_marked mark yes no,
    Spells.absorb_mark hm hc hyes hno hcond (.inr rfl) (hcond.takesMark (by simp))⟩

lemma assign {s t : Assignee} (hs : s ≠ .other) (h₁ : Yields (.expression .or s) v)
    (h₂ : Yields (.expression .ternary t) w) :
    Yields (.expression .assignment .other) (v ++ .equal :: w) := by
  intro ts hts
  obtain ⟨us, equals, vs, rfl, hus, hk, hvs⟩ := exists_around hts
  obtain ⟨target, rfl, ht⟩ := h₁ us hus
  obtain ⟨value, -, hv⟩ := h₂ vs hvs
  cases target with
  | ref => exact ⟨_, rfl, .assign hk ht hv⟩
  | get => exact ⟨_, rfl, .set hk ht hv⟩
  | _ => exact absurd rfl hs

lemma sign {s : Assignee} {op : Kind} (hop : op ∈ [.bang, .minus])
    (h : Yields (.expression .sign s) w) : Yields (.expression .sign .other) (op :: w) := by
  intro ts hts
  obtain ⟨op, us, rfl, rfl, hus⟩ := List.map_eq_cons_iff.mp hts
  obtain ⟨e, -, he⟩ := h us hus
  exact ⟨_, rfl, .sign hop he⟩

lemma call {s : Assignee} (hcount : count ≤ maxArguments) (h₁ : Yields (.expression .call s) v)
    (h₂ : Yields (.optional (.expressions count)) w) :
    Yields (.expression .call .other) (v ++ .leftParen :: (w ++ [.rightParen])) := by
  intro ts hts
  obtain ⟨us, _, rfl, hus, hts⟩ := List.map_eq_append_iff.mp hts
  obtain ⟨opening, vs, closing, rfl, ho, hvs, hc⟩ := exists_between hts
  obtain ⟨callee, -, hcallee⟩ := h₁ us hus
  obtain ⟨es, hlength, hes⟩ := Symbol.spelled_items (h₂ vs hvs)
  exact ⟨_, rfl, .call ho hc (Nat.le_trans hlength hcount) hcallee hes⟩

lemma property {s : Assignee} (h : Yields (.expression .call s) v) :
    Yields (.expression .call .property) (v ++ [.dot, .identifier]) := by
  intro ts hts
  obtain ⟨us, dot, _, rfl, hus, hd, hts⟩ := exists_around hts
  obtain ⟨name, rfl, hn⟩ := List.map_eq_singleton_iff.mp hts
  obtain ⟨e, -, he⟩ := h us hus
  exact ⟨_, rfl, .get hd hn he⟩

lemma constant {k : Kind} (hk : k ∈ constants) : Yields (.expression .primary .other) [k] := by
  intro ts hts
  obtain ⟨t, rfl, rfl⟩ := List.map_eq_singleton_iff.mp hts
  by_cases ht : t.kind = .thisWord
  · exact ⟨_, rfl, .this ht⟩
  · obtain ⟨value, hv⟩ := Token.exists_literal hk ht
    exact ⟨_, rfl, .literal hv⟩

lemma name : Yields (.expression .primary .name) [.identifier] := by
  intro ts hts
  obtain ⟨t, rfl, ht⟩ := List.map_eq_singleton_iff.mp hts
  exact ⟨_, rfl, .ref ht⟩

lemma super : Yields (.expression .primary .other) [.superWord, .dot, .identifier] := by
  intro ts hts
  obtain ⟨t, _, rfl, ht, hts⟩ := List.map_eq_cons_iff.mp hts
  obtain ⟨dot, _, rfl, hd, hts⟩ := List.map_eq_cons_iff.mp hts
  obtain ⟨method, rfl, hm⟩ := List.map_eq_singleton_iff.mp hts
  exact ⟨_, rfl, .super ht hd hm⟩

lemma grouping {s : Assignee} (h : Yields (.expression .comma s) w) :
    Yields (.expression .primary .other) (.leftParen :: (w ++ [.rightParen])) := by
  intro ts hts
  obtain ⟨opening, us, closing, rfl, ho, hus, hc⟩ := exists_between hts
  obtain ⟨e, -, he⟩ := h us hus
  exact ⟨_, rfl, .grouping ho hc he⟩

lemma list (h : Yields (.optional (.expressions count)) w) :
    Yields (.expression .primary .other) (.leftBracket :: (w ++ [.rightBracket])) := by
  intro ts hts
  obtain ⟨opening, us, closing, rfl, ho, hus, hc⟩ := exists_between hts
  obtain ⟨es, -, hes⟩ := Symbol.spelled_items (h us hus)
  exact ⟨_, rfl, .list ho hc hes⟩

lemma lastExpression {s : Assignee} (h : Yields (.expression .ternary s) w) :
    Yields (.expressions 1) w := by
  intro ts hts
  obtain ⟨e, -, he⟩ := h ts hts
  exact ⟨[e], rfl, .lastExpression he⟩

lemma moreExpressions {s : Assignee} (h₁ : Yields (.expression .ternary s) v)
    (h₂ : Yields (.expressions count) w) :
    Yields (.expressions (count + 1)) (v ++ .comma :: w) := by
  intro ts hts
  obtain ⟨us, comma, vs, rfl, hus, hk, hvs⟩ := exists_around hts
  obtain ⟨e, -, he⟩ := h₁ us hus
  obtain ⟨es, rfl, hes⟩ := h₂ vs hvs
  exact ⟨e :: es, rfl, .moreExpressions hk he hes⟩

lemma lastName : Yields (.names 1) [.identifier] := by
  intro ts hts
  obtain ⟨name, rfl, hn⟩ := List.map_eq_singleton_iff.mp hts
  exact ⟨[name], rfl, .lastName hn⟩

lemma moreNames (h : Yields (.names count) w) :
    Yields (.names (count + 1)) (.identifier :: .comma :: w) := by
  intro ts hts
  obtain ⟨name, _, rfl, hn, hts⟩ := List.map_eq_cons_iff.mp hts
  obtain ⟨comma, us, rfl, hk, hus⟩ := List.map_eq_cons_iff.mp hts
  obtain ⟨ps, rfl, hps⟩ := h us hus
  exact ⟨name :: ps, rfl, .moreNames hn hk hps⟩

lemma parameters (hcount : count ≤ maxArguments) (h : Yields (.optional (.names count)) w) :
    Yields .parameters (.leftParen :: (w ++ [.rightParen])) := by
  intro ts hts
  obtain ⟨opening, us, closing, rfl, ho, hus, hc⟩ := exists_between hts
  obtain rfl | ⟨ps, rfl, hps⟩ := h us hus
  · exact ⟨_, .noParameters ho hc⟩
  · exact ⟨_, .parameters ho hc hcount hps⟩

lemma body (h : Yields (.many (.declaration false)) w) :
    Yields .body (.leftBrace :: (w ++ [.rightBrace])) := by
  intro ts hts
  obtain ⟨opening, us, closing, rfl, ho, hus, hc⟩ := exists_between hts
  obtain ⟨body, hbody⟩ := Symbol.spelled_declarations (h us hus)
  exact ⟨_, body, .getter ho hc hbody⟩

lemma member (h₁ : Yields (.optional .parameters) v) (h₂ : Yields .body w) :
    Yields .member (.identifier :: (v ++ w)) := by
  intro ts hts
  obtain ⟨name, _, rfl, hn, hts⟩ := List.map_eq_cons_iff.mp hts
  obtain ⟨us, vs, rfl, hus, hvs⟩ := List.map_eq_append_iff.mp hts
  obtain ⟨line, body, hbody⟩ := h₂ vs hvs
  obtain rfl | ⟨ps, hps⟩ := h₁ us hus
  · exact ⟨name, vs, _, line, body, rfl, hn, hbody⟩
  · exact ⟨name, us ++ vs, some ps, line, body, rfl, hn, .rest hps hbody⟩

lemma method (h : Yields .member w) : Yields .classMember w := by
  intro ts hts
  obtain ⟨name, us, params, line, body, rfl, hn, hf⟩ := h ts hts
  exact ⟨_, fun ms vs hms => .method hn hf hms⟩

lemma staticMember (h : Yields .member w) : Yields .classMember (.classWord :: w) := by
  intro ts hts
  obtain ⟨keyword, _, rfl, hk, hts⟩ := List.map_eq_cons_iff.mp hts
  obtain ⟨name, us, params, line, body, rfl, hn, hf⟩ := h _ hts
  exact ⟨_, fun ms vs hms => .staticMember hk hn hf hms⟩

lemma superclass : Yields .superclass [.less, .identifier] := by
  intro ts hts
  obtain ⟨less, _, rfl, hl, hts⟩ := List.map_eq_cons_iff.mp hts
  obtain ⟨name, rfl, hn⟩ := List.map_eq_singleton_iff.mp hts
  exact ⟨_, .superclass hl hn⟩

lemma classDecl (h₁ : Yields (.optional .superclass) v) (h₂ : Yields (.many .classMember) w) :
    Yields (.declaration b)
      (.classWord :: .identifier :: (v ++ .leftBrace :: (w ++ [.rightBrace]))) := by
  intro ts hts
  obtain ⟨keyword, _, rfl, hk, hts⟩ := List.map_eq_cons_iff.mp hts
  obtain ⟨name, _, rfl, hn, hts⟩ := List.map_eq_cons_iff.mp hts
  obtain ⟨us, _, rfl, hus, hts⟩ := List.map_eq_append_iff.mp hts
  obtain ⟨opening, vs, closing, rfl, ho, hvs, hc⟩ := exists_between hts
  obtain ⟨ms, hms⟩ := Symbol.spelled_members (h₂ vs hvs)
  obtain rfl | ⟨parent, hparent⟩ := h₁ us hus
  · exact ⟨_, .classDecl hk hn ho hc .noSuperclass hms⟩
  · exact ⟨_, .classDecl hk hn ho hc hparent hms⟩

lemma function (h₁ : Yields .parameters v) (h₂ : Yields .body w) :
    Yields (.declaration b) (.funWord :: .identifier :: (v ++ w)) := by
  intro ts hts
  obtain ⟨keyword, _, rfl, hk, hts⟩ := List.map_eq_cons_iff.mp hts
  obtain ⟨name, _, rfl, hn, hts⟩ := List.map_eq_cons_iff.mp hts
  obtain ⟨us, vs, rfl, hus, hvs⟩ := List.map_eq_append_iff.mp hts
  obtain ⟨ps, hps⟩ := h₁ us hus
  obtain ⟨line, body, hbody⟩ := h₂ vs hvs
  exact ⟨_, .function hk hn (.rest hps hbody)⟩

lemma uninitialized : Yields .variable [.varWord, .identifier, .semicolon] := by
  intro ts hts
  obtain ⟨keyword, _, rfl, hk, hts⟩ := List.map_eq_cons_iff.mp hts
  obtain ⟨name, _, rfl, hn, hts⟩ := List.map_eq_cons_iff.mp hts
  obtain ⟨semicolon, rfl, hs⟩ := List.map_eq_singleton_iff.mp hts
  exact ⟨keyword, _, _, rfl, hk, .uninitialized hn hs⟩

lemma initialized {s : Assignee} (h : Yields (.expression .comma s) w) :
    Yields .variable (.varWord :: .identifier :: .equal :: (w ++ [.semicolon])) := by
  intro ts hts
  obtain ⟨keyword, _, rfl, hk, hts⟩ := List.map_eq_cons_iff.mp hts
  obtain ⟨name, _, rfl, hn, hts⟩ := List.map_eq_cons_iff.mp hts
  obtain ⟨equals, us, semicolon, rfl, he, hus, hs⟩ := exists_between hts
  obtain ⟨e, -, hinit⟩ := h us hus
  exact ⟨keyword, _, _, rfl, hk, .initialized hn he hs hinit⟩

lemma variableDecl (h : Yields .variable w) : Yields (.declaration b) w := by
  intro ts hts
  obtain ⟨keyword, us, s, rfl, hk, hs⟩ := h ts hts
  exact ⟨s, .variableDecl hk hs⟩

lemma statement (h : Yields (.statement b) w) : Yields (.declaration b) w := by
  intro ts hts
  obtain ⟨o, s, hs⟩ := h ts hts
  exact ⟨s, .statement hs⟩

lemma expressionStatement {s : Assignee} (h : Yields (.expression .comma s) w) :
    Yields .expressionStatement (w ++ [.semicolon]) := by
  intro ts hts
  obtain ⟨us, semicolon, rfl, hus, hs⟩ := exists_before hts
  obtain ⟨e, -, he⟩ := h us hus
  obtain ⟨first, us, rfl⟩ := List.exists_cons_of_ne_nil (he.ne_nil Nat.one_pos)
  exact ⟨_, .expressionStatement hs he⟩

lemma expression (h : Yields .expressionStatement w) : Yields (.statement b) w := by
  intro ts hts
  obtain ⟨s, hs⟩ := h ts hts
  exact ⟨false, s, .expression hs⟩

lemma breakLoop : Yields (.statement true) [.breakWord, .semicolon] := by
  intro ts hts
  obtain ⟨keyword, _, rfl, hk, hts⟩ := List.map_eq_cons_iff.mp hts
  obtain ⟨semicolon, rfl, hs⟩ := List.map_eq_singleton_iff.mp hts
  exact ⟨false, _, .breakLoop hk hs⟩

lemma print {s : Assignee} (h : Yields (.expression .comma s) w) :
    Yields (.statement b) (.printWord :: (w ++ [.semicolon])) := by
  intro ts hts
  obtain ⟨keyword, us, semicolon, rfl, hk, hus, hs⟩ := exists_between hts
  obtain ⟨e, -, he⟩ := h us hus
  exact ⟨false, _, .print hk hs he⟩

lemma returnValue {s : Assignee} (h : Yields (.optional (.expression .comma s)) w) :
    Yields (.statement b) (.returnWord :: (w ++ [.semicolon])) := by
  intro ts hts
  obtain ⟨keyword, us, semicolon, rfl, hk, hus, hs⟩ := exists_between hts
  obtain ⟨e, he⟩ := Symbol.spelled_optional (h us hus)
  exact ⟨false, _, .returnValue hk hs he⟩

lemma block (h : Yields (.many (.declaration b)) w) :
    Yields (.statement b) (.leftBrace :: (w ++ [.rightBrace])) := by
  intro ts hts
  obtain ⟨opening, us, closing, rfl, ho, hus, hc⟩ := exists_between hts
  obtain ⟨body, hbody⟩ := Symbol.spelled_declarations (h us hus)
  exact ⟨false, _, .block ho hc hbody⟩

lemma ifOnly {s : Assignee} (h₁ : Yields (.expression .comma s) v) (h₂ : Yields (.statement b) w) :
    Yields (.statement b) (.ifWord :: .leftParen :: (v ++ .rightParen :: w)) := by
  intro ts hts
  obtain ⟨keyword, _, rfl, hk, hts⟩ := List.map_eq_cons_iff.mp hts
  obtain ⟨opening, _, rfl, ho, hts⟩ := List.map_eq_cons_iff.mp hts
  obtain ⟨us, closing, vs, rfl, hus, hc, hvs⟩ := exists_around hts
  obtain ⟨c, -, hcond⟩ := h₁ us hus
  obtain ⟨o, yes, hyes⟩ := h₂ vs hvs
  exact ⟨true, _, .ifOnly hk ho hc hcond hyes⟩

lemma ifElse {s : Assignee} (h₁ : Yields (.expression .comma s) v) (h₂ : Yields (.statement b) w)
    (h₃ : Yields (.statement b) x) :
    Yields (.statement b)
      (.ifWord :: .leftParen :: (v ++ .rightParen :: (w ++ .elseWord :: x))) := by
  intro ts hts
  obtain ⟨keyword, _, rfl, hk, hts⟩ := List.map_eq_cons_iff.mp hts
  obtain ⟨opening, _, rfl, ho, hts⟩ := List.map_eq_cons_iff.mp hts
  obtain ⟨us, closing, _, rfl, hus, hc, hts⟩ := exists_around hts
  obtain ⟨vs, word, ws, rfl, hvs, hw, hws⟩ := exists_around hts
  obtain ⟨c, -, hcond⟩ := h₁ us hus
  obtain ⟨o, yes, hyes⟩ := h₂ vs hvs
  obtain ⟨o', no, hno⟩ := h₃ ws hws
  cases o
  · exact ⟨o', _, .ifElse hk ho hc hw hcond hyes hno⟩
  · obtain ⟨o'', s, hs⟩ := hyes.absorb_else hw rfl hno
    exact ⟨true, _, .ifOnly hk ho hc hcond hs⟩

lemma whileLoop {s : Assignee} (h₁ : Yields (.expression .comma s) v)
    (h₂ : Yields (.statement true) w) :
    Yields (.statement b) (.whileWord :: .leftParen :: (v ++ .rightParen :: w)) := by
  intro ts hts
  obtain ⟨keyword, _, rfl, hk, hts⟩ := List.map_eq_cons_iff.mp hts
  obtain ⟨opening, _, rfl, ho, hts⟩ := List.map_eq_cons_iff.mp hts
  obtain ⟨us, closing, vs, rfl, hus, hc, hvs⟩ := exists_around hts
  obtain ⟨c, -, hcond⟩ := h₁ us hus
  obtain ⟨o, body, hbody⟩ := h₂ vs hvs
  exact ⟨o, _, .whileLoop hk ho hc hcond hbody⟩

lemma forStart : Yields .forStart [.semicolon] := by
  intro ts hts
  obtain ⟨semicolon, rfl, hs⟩ := List.map_eq_singleton_iff.mp hts
  exact ⟨_, .forNothing hs⟩

lemma forVariable (h : Yields .variable w) : Yields .forStart w := by
  intro ts hts
  obtain ⟨keyword, us, s, rfl, hk, hs⟩ := h ts hts
  exact ⟨some s, .forVariable hk hs⟩

lemma forExpression (h : Yields .expressionStatement w) : Yields .forStart w := by
  intro ts hts
  obtain ⟨s, hs⟩ := h ts hts
  exact ⟨some s, .forExpression hs⟩

lemma forLoop {s t : Assignee} {u : List Kind} (h₁ : Yields .forStart u)
    (h₂ : Yields (.optional (.expression .comma s)) v)
    (h₃ : Yields (.optional (.expression .comma t)) w) (h₄ : Yields (.statement true) x) :
    Yields (.statement b)
      (.forWord :: .leftParen :: (u ++ (v ++ .semicolon :: (w ++ .rightParen :: x)))) := by
  intro ts hts
  obtain ⟨keyword, _, rfl, hk, hts⟩ := List.map_eq_cons_iff.mp hts
  obtain ⟨opening, _, rfl, ho, hts⟩ := List.map_eq_cons_iff.mp hts
  obtain ⟨us, _, rfl, hus, hts⟩ := List.map_eq_append_iff.mp hts
  obtain ⟨vs, semicolon, _, rfl, hvs, hs, hts⟩ := exists_around hts
  obtain ⟨ws, closing, xs, rfl, hws, hc, hxs⟩ := exists_around hts
  obtain ⟨start, hstart⟩ := h₁ us hus
  obtain ⟨c, hcond⟩ := Symbol.spelled_optional (h₂ vs hvs)
  obtain ⟨step, hstep⟩ := Symbol.spelled_optional (h₃ ws hws)
  obtain ⟨o, body, hbody⟩ := h₄ xs hxs
  exact ⟨o, _, .forLoop hk ho hs hc hstart hcond hstep hbody⟩

lemma program (h : Yields (.many (.declaration false)) w) : Yields .program (w ++ [.finish]) := by
  intro ts hts
  obtain ⟨us, last, rfl, hus, hlast⟩ := exists_before hts
  obtain ⟨body, hbody⟩ := Symbol.spelled_declarations (h us hus)
  exact ⟨us, last, body, rfl, hlast, hbody⟩

end Symbol.Yields

lemma Derives.spelled {s : Symbol} {w : List Kind} (h : Derives s w) : s.Yields w := by
  induction h with
  | absent => exact .absent
  | present _ ih => exact .present ih
  | none => exact .none
  | more _ _ ih ihs => exact .more ih ihs
  | pass hl _ ih => exact .pass hl ih
  | join hop _ _ ihl ihr => exact .join hop ihl ihr
  | lambda _ _ ihp ihb => exact .lambda ihp ihb
  | conditional _ _ _ ihc ihy ihn => exact .conditional ihc ihy ihn
  | assign hs _ _ iht ihv => exact .assign hs iht ihv
  | sign hop _ ih => exact .sign hop ih
  | call hcount _ _ ihc ihes => exact .call hcount ihc ihes
  | property _ ih => exact .property ih
  | constant hk => exact .constant hk
  | name => exact .name
  | super => exact .super
  | grouping _ ih => exact .grouping ih
  | list _ ih => exact .list ih
  | lastExpression _ ih => exact .lastExpression ih
  | moreExpressions _ _ ihe ihes => exact .moreExpressions ihe ihes
  | lastName => exact .lastName
  | moreNames _ ih => exact .moreNames ih
  | parameters hcount _ ih => exact .parameters hcount ih
  | body _ ih => exact .body ih
  | member _ _ ihp ihb => exact .member ihp ihb
  | method _ ih => exact .method ih
  | staticMember _ ih => exact .staticMember ih
  | superclass => exact .superclass
  | classDecl _ _ ihp ihms => exact .classDecl ihp ihms
  | function _ _ ihp ihb => exact .function ihp ihb
  | uninitialized => exact .uninitialized
  | initialized _ ih => exact .initialized ih
  | variableDecl _ ih => exact .variableDecl ih
  | statement _ ih => exact .statement ih
  | expressionStatement _ ih => exact .expressionStatement ih
  | expression _ ih => exact .expression ih
  | breakLoop => exact .breakLoop
  | print _ ih => exact .print ih
  | returnValue _ ih => exact .returnValue ih
  | block _ ih => exact .block ih
  | ifOnly _ _ ihc ihy => exact .ifOnly ihc ihy
  | ifElse _ _ _ ihc ihy ihn => exact .ifElse ihc ihy ihn
  | whileLoop _ _ ihc ihb => exact .whileLoop ihc ihb
  | forStart => exact .forStart
  | forVariable _ ih => exact .forVariable ih
  | forExpression _ ih => exact .forExpression ih
  | forLoop _ _ _ _ ihi ihc ihs ihb => exact .forLoop ihi ihc ihs ihb
  | program _ ih => exact .program ih

end Lox
