import Lox.Program
import Lox.Prompt.Editing
import Lox.Proofs.Grammar.Single

/-! Complete inputs are finished: the brackets of a program or an expression that is read without a
report stand in pairs, so none of them is left open. -/

namespace Lox

namespace Kind

def closing? : Kind → Option Kind
  | leftParen => some rightParen
  | leftBracket => some rightBracket
  | leftBrace => some rightBrace
  | _ => none

def isBracket (k : Kind) : Bool := k.opens || k.closes

lemma opens_of_closing? {k l : Kind} (h : k.closing? = some l) : k.opens = true := by
  cases k <;> first | rfl | cases h

lemma closes_of_closing? {k l : Kind} (h : k.closing? = some l) : l.closes = true := by
  cases k <;> cases h <;> rfl

lemma not_opens_of_closes {k : Kind} (h : k.closes = true) : k.opens = false := by
  cases k <;> first | rfl | cases h

end Kind

/-- The brackets among the tokens stand in pairs of one kind, next to or within each other. -/
inductive Nested : List Token → Prop
  | nil : Nested []
  | plain {t ts} : t.kind.isBracket = false → Nested ts → Nested (t :: ts)
  | pair {opening closing ts us} : opening.kind.closing? = some closing.kind → Nested ts →
      Nested us → Nested (opening :: (ts ++ closing :: us))

namespace Nested

variable {t opening closing : Token} {ts us vs : List Token}

lemma append (h : Nested ts) (hu : Nested us) : Nested (ts ++ us) := by
  induction h with
  | nil => exact hu
  | plain ht _ ih => exact plain ht ih
  | pair hk hin _ _ ih =>
    rw [List.cons_append, List.append_assoc, List.cons_append]
    exact pair hk hin ih

lemma plain_kind {k : Kind} (ht : t.kind = k) (hk : k.isBracket = false) (h : Nested ts) :
    Nested (t :: ts) :=
  plain (by rw [ht, hk]) h

lemma paren (ho : opening.kind = .leftParen) (hc : closing.kind = .rightParen) (h : Nested ts)
    (hu : Nested us) : Nested (opening :: (ts ++ closing :: us)) :=
  pair (by rw [ho, hc]; rfl) h hu

lemma brace (ho : opening.kind = .leftBrace) (hc : closing.kind = .rightBrace) (h : Nested ts) :
    Nested (opening :: (ts ++ [closing])) :=
  pair (by rw [ho, hc]; rfl) h nil

theorem foldl_depthAfter (h : Nested ts) (depth : Nat) :
    ts.foldl Prompt.depthAfter depth = depth := by
  induction h generalizing depth with
  | nil => rfl
  | plain ht _ ih =>
    obtain ⟨ho, hc⟩ := Bool.or_eq_false_iff.mp ht
    rw [List.foldl_cons, Prompt.depthAfter, ho, hc]
    exact ih depth
  | pair hk _ _ ihts ihus =>
    have hopening := Kind.opens_of_closing? hk
    have hcloses := Kind.closes_of_closing? hk
    have hopens := Kind.not_opens_of_closes hcloses
    rw [List.foldl_cons, List.foldl_append, List.foldl_cons]
    simp only [Prompt.depthAfter, hopening, hopens, hcloses, if_true, Bool.false_eq_true, if_false]
    rw [ihts, Nat.add_sub_cancel, ihus]

theorem lt_foldl_depthAfter {all : List Token} (h : Nested all) (hall : all = us ++ t :: vs)
    (ht : t.kind.closes = true) (depth : Nat) : depth < us.foldl Prompt.depthAfter depth := by
  induction h generalizing us vs depth with
  | nil => simp at hall
  | plain hplain _ ih =>
    obtain ⟨ho, hc⟩ := Bool.or_eq_false_iff.mp hplain
    cases us with
    | nil =>
      obtain ⟨rfl, -⟩ := List.cons.inj hall
      rw [hc] at ht
      cases ht
    | cons u us =>
      obtain ⟨rfl, hmore⟩ := List.cons.inj hall
      rw [List.foldl_cons, Prompt.depthAfter, ho, hc]
      exact ih hmore depth
  | @pair opening closing inside after hk hin _ ihin ihafter =>
    have hopens := Kind.opens_of_closing? hk
    have hcloses := Kind.closes_of_closing? hk
    cases us with
    | nil =>
      obtain ⟨rfl, -⟩ := List.cons.inj hall
      rw [Kind.not_opens_of_closes ht] at hopens
      cases hopens
    | cons u us =>
      obtain ⟨rfl, hmore⟩ := List.cons.inj hall
      have hstep : Prompt.depthAfter depth opening = depth + 1 := by
        rw [Prompt.depthAfter, hopens, if_pos rfl]
      rw [List.foldl_cons, hstep]
      -- The token stands inside the pair, or it is the closing one, or it comes after the pair.
      obtain ⟨before, rfl, hrest⟩ | ⟨rest, hinside, hrest⟩ := List.append_eq_append_iff.mp hmore
      · rw [List.foldl_append, hin.foldl_depthAfter]
        cases before with
        | nil => exact Nat.lt_succ_self depth
        | cons b before =>
          obtain ⟨rfl, hafter⟩ := List.cons.inj hrest
          have hback : Prompt.depthAfter (depth + 1) closing = depth := by
            rw [Prompt.depthAfter, Kind.not_opens_of_closes hcloses, hcloses]
            rfl
          rw [List.foldl_cons, hback]
          exact ihafter hafter depth
      · cases rest with
        | nil =>
          rw [List.append_nil] at hinside
          rw [← hinside, hin.foldl_depthAfter]
          exact Nat.lt_succ_self depth
        | cons r rest =>
          obtain ⟨rfl, -⟩ := List.cons.inj hrest
          exact Nat.lt_of_succ_lt (ihin hinside (depth + 1))

end Nested

lemma Level.not_isBracket {level : Level} {k : Kind} (h : k ∈ level.ops) :
    k.isBracket = false := by
  have hall : ∀ k ∈ level.ops, k.isBracket = false := by cases level <;> decide
  exact hall k h

lemma Token.not_isBracket_of_literal? {t : Token} {value : Literal}
    (h : t.literal? = some value) : t.kind.isBracket = false := by
  unfold Token.literal? at h
  split at h <;> simp_all [Kind.isBracket, Kind.opens, Kind.closes]

theorem Spells.nested {φ : Phrase} {ts : List Token} (h : Spells φ ts) : Nested ts := by
  induction h with
  | pass _ _ ih | present _ ih | lastExpression _ ih | items _ ih | statement _ ih
  | expression _ ih | forExpression _ ih => exact ih
  | absent | noItems | noMembers | noSuperclass | noDeclarations => exact .nil
  -- Operators, names and words stand between and around what is nested.
  | join hop _ _ ihl ihr => exact ihl.append (.plain (Level.not_isBracket hop) ihr)
  | lambda hk _ ih | variableDecl hk _ ih | forVariable hk _ ih => exact .plain_kind hk rfl ih
  | conditional hm hc _ _ _ _ ihc ihy ihn =>
    exact ihc.append (.plain_kind hm rfl (ihy.append (.plain_kind hc rfl ihn)))
  | assign he _ _ iht ihv | set he _ _ iht ihv => exact iht.append (.plain_kind he rfl ihv)
  | sign hop _ ih =>
    have hall : ∀ k ∈ [Kind.bang, Kind.minus], k.isBracket = false := by decide
    exact .plain (hall _ hop) ih
  | get hd hn _ ih => exact ih.append (.plain_kind hd rfl (.plain_kind hn rfl .nil))
  | literal h => exact .plain (Token.not_isBracket_of_literal? h) .nil
  | this hk | ref hk | lastName hk | forNothing hk => exact .plain_kind hk rfl .nil
  | super hs hd hm =>
    exact .plain_kind hs rfl (.plain_kind hd rfl (.plain_kind hm rfl .nil))
  | moreExpressions hc _ _ ihe ihes => exact ihe.append (.plain_kind hc rfl ihes)
  | moreNames hn hc _ ih => exact .plain_kind hn rfl (.plain_kind hc rfl ih)
  | rest _ _ iht ihu | declarations _ _ iht ihu => exact iht.append ihu
  | method hn _ _ iht ihu => exact .plain_kind hn rfl (iht.append ihu)
  | staticMember hk hn _ _ iht ihu =>
    exact .plain_kind hk rfl (.plain_kind hn rfl (iht.append ihu))
  | superclass hl hn | uninitialized hl hn | breakLoop hl hn =>
    exact .plain_kind hl rfl (.plain_kind hn rfl .nil)
  | function hk hn _ ih => exact .plain_kind hk rfl (.plain_kind hn rfl ih)
  | initialized hn he hs _ ih =>
    exact .plain_kind hn rfl (.plain_kind he rfl (ih.append (.plain_kind hs rfl .nil)))
  | expressionStatement hs _ ih => exact ih.append (.plain_kind hs rfl .nil)
  | print hk hs _ ih | returnValue hk hs _ ih =>
    exact .plain_kind hk rfl (ih.append (.plain_kind hs rfl .nil))
  -- Brackets come in pairs of a kind.
  | call ho hc _ _ _ ihc ihes => exact ihc.append (.paren ho hc ihes .nil)
  | grouping ho hc _ ih | parameters ho hc _ _ ih => exact .paren ho hc ih .nil
  | noParameters ho hc => exact .paren ho hc .nil .nil
  | list ho hc _ ih => exact .pair (by rw [ho, hc]; rfl) ih .nil
  | getter ho hc _ ih | block ho hc _ ih => exact .brace ho hc ih
  | classDecl hk hn ho hc _ _ iht ihu =>
    exact .plain_kind hk rfl (.plain_kind hn rfl (iht.append (.brace ho hc ihu)))
  | ifOnly hk ho hc _ _ ihc ihy => exact .plain_kind hk rfl (.paren ho hc ihc ihy)
  | ifElse hk ho hc hw _ _ _ ihc ihy ihn =>
    exact .plain_kind hk rfl (.paren ho hc ihc (ihy.append (.plain_kind hw rfl ihn)))
  | whileLoop hk ho hc _ _ ihc ihb => exact .plain_kind hk rfl (.paren ho hc ihc ihb)
  | @forLoop _ _ _ _ _ _ _ _ _ _ ts us vs ws hk ho hs hc _ _ _ _ ihi ihc ihs ihb =>
    have hhead := ihi.append (ihc.append (.plain_kind hs rfl ihs))
    simpa using Nested.plain_kind hk rfl (.paren ho hc hhead ihb)

namespace Prompt

variable {text : String}

lemma nested_of_program (h : (Program.ofSource text).diagnostics = []) :
    Nested (Scan.ofString text).tokens :=
  (Grammar.spells_of_program rfl (List.append_eq_nil_iff.mp h).2).nested

lemma nested_of_bareExpression (h : (Grammar.bareExpression? (Scan.ofString text)).isSome) :
    Nested (Scan.ofString text).tokens := by
  obtain ⟨e, he⟩ := Option.isSome_iff_exists.mp h
  exact ((Grammar.bareExpression?_eq_some_iff rfl).mp he).2.nested

/-- A text that is a program or an expression without any report is accepted by Enter: its brackets
are nested, each one that closes finds one open, and none is left open. -/
theorem enter_accepts_complete
    (h : (Program.ofSource text).diagnostics = [] ∨
      (Grammar.bareExpression? (Scan.ofString text)).isSome) :
    openDepth text.toList = 0 ∧ press text.toList .enter = (text.toList, some .accept) ∧
      Nested (Scan.ofString text).tokens ∧
      ∀ us t vs, (Scan.ofString text).tokens = us ++ t :: vs → t.kind.closes = true →
        0 < us.foldl depthAfter 0 := by
  have hnested : Nested (Scan.ofString text).tokens :=
    h.elim nested_of_program nested_of_bareExpression
  have hdepth : openDepth text.toList = 0 := hnested.foldl_depthAfter 0
  refine ⟨hdepth, ?_, hnested, fun us t vs htokens ht => hnested.lt_foldl_depthAfter htokens ht 0⟩
  simp [press, isFinished, hdepth]

theorem enter_accepts_complete_examples :
    let program := "fun f(xs) \x7b\n  if (xs) return [g(xs), (1)];\n\x7d"
    (press program.toList .enter = (program.toList, some .accept)) ∧
      press "f([1], (2))".toList .enter = ("f([1], (2))".toList, some .accept) := by
  intro program
  refine ⟨(enter_accepts_complete (.inl ?_)).2.1, (enter_accepts_complete (.inr ?_)).2.1⟩
  · decide +kernel
  · decide +kernel

end Prompt

end Lox
