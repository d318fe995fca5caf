import Lox.Proofs.Alike.Lockstep
import Lox.Proofs.Grammar.Complete
import Lox.Proofs.Scope.Unused
import Lox.Proofs.Token.Order

/-! Programs further down: a source behind another one compiles to what the first compiles to,
followed by what it compiles to itself, with its lines shifted. -/

namespace Lox

open Resolver

namespace Program

variable {source : String} {body : List Stmt}

lemma ofSource_of_spells (hd : (Scan.ofString source).diagnostics = [])
    (h : Spells (.declarations false body) (Scan.ofString source).tokens) :
    ofSource source = ⟨body, []⟩ := by
  rw [ofSource, ofScan, Grammar.program_of_spells rfl h, hd]
  rfl

def ending (body : List Stmt) : Scopes := (resolveStmts outermost body).after .start

lemma compile_of_spells (hd : (Scan.ofString source).diagnostics = [])
    (h : Spells (.declarations false body) (Scan.ofString source).tokens) :
    compile source = ⟨(resolveStmts outermost body).result .start,
      (ending body).reports ++ Scopes.warnings (ending body).unused⟩ := by
  rw [compile, ofSource_of_spells hd h]
  rfl

end Program

structure Placement where
  place : Token → Token → Prop
  this : ∀ {t t' : Token}, place t t' →
    place { t with kind := .thisWord, lexeme := "this" } { t' with kind := .thisWord, lexeme := "this" }

def Variation.ofPlacement (P : Placement) : Variation where
  place := P.place
  loop t t' := t'.kind = t.kind ∧ t'.lexeme = t.lexeme ∧ P.place t t'
  Renames r := r = id
  Occurs _ := True
  place_of_loop h := h.2.2
  loop_of_place hkind hlexeme hplace := ⟨hkind, hlexeme, hplace⟩
  place_this := P.this
  renames_id := rfl
  injective hr := hr ▸ Function.injective_id
  this hr := hr ▸ rfl
  super hr := hr ▸ rfl
  occurs_this := trivial
  occurs_super := trivial
  apart hr hr' _ _ h := by
    subst hr hr'
    exact h

def Placement.shift (n : Nat) : Placement where
  place t t' := t' = t.down n
  this h := by
    subst h
    rfl

def Placement.fixed : Placement where
  place t t' := 1 ≤ t.line ∧ t' = t
  this h := by
    obtain ⟨hline, rfl⟩ := h
    exact ⟨hline, rfl⟩

def Variation.shift (n : Nat) : Variation := .ofPlacement (.shift n)

def Variation.fixed : Variation := .ofPlacement .fixed

def Token.Moved (ts : List Token) (n : Nat) (t t' : Token) : Prop :=
  (∃ u ∈ ts, u.line = t.line) ∧ t' = t.down n

variable {ts : List Token} {n : Nat} {earlier : List Token}

lemma Token.interchangeable_moved (ts : List Token) (n : Nat) :
    Token.Interchangeable (Token.Moved ts n) where
  kind h := by
    obtain ⟨-, rfl⟩ := h
    rfl
  literal? h := by
    obtain ⟨-, rfl⟩ := h
    rfl
  always h := by
    obtain ⟨hline, rfl⟩ := h
    exact ⟨hline, rfl⟩

lemma Token.forall₂_moved (ts : List Token) (n : Nat) :
    List.Forall₂ (Token.Moved ts n) ts (ts.map (Token.down n)) :=
  List.forall₂_map_right_iff.mpr <| List.forall₂_same.mpr fun t ht => ⟨⟨t, ht, rfl⟩, rfl⟩

lemma Token.map_down_of_moved {us us' : List Token}
    (h : List.Forall₂ (Token.Moved ts n) us us') : us' = us.map (Token.down n) := by
  have heq : List.Forall₂ Eq (us.map (Token.down n)) us' :=
    List.forall₂_map_left_iff.mpr (h.imp fun _ _ hm => hm.2.symm)
  rw [List.forall₂_eq_eq_eq] at heq
  exact heq.symm

section Moved

variable {P : Placement} (hplace : ∀ {t t'}, Token.Moved ts n t t' → P.place t t')

include hplace

lemma Token.Moved.alike {t t' : Token} (h : t.Moved ts n t') :
    Token.Alike (.ofPlacement P) id t t' := by
  refine ⟨?_, ?_, hplace h⟩
  · obtain ⟨-, rfl⟩ := h
    rfl
  · obtain ⟨-, rfl⟩ := h
    rfl

lemma Variation.weaker_moved :
    (Likeness.ofTokens (Token.Moved ts n)).Weaker
      ((Variation.ofPlacement P).unresolved (Token.Moved ts n))
      fun _ ν => ν = (Variation.ofPlacement P).plain where
  token h := h.alike hplace
  loop h := (h.alike hplace).loop
  use {_ _ r _} hν h := by
    subst hν
    have hunder : Variation.Names.under (Variation.ofPlacement P).plain r.depth = id := by
      cases r.depth <;> rfl
    refine ⟨?_, trivial, h.2⟩
    rw [hunder]
    exact h.1.alike hplace
  binder hν h := by
    subst hν
    exact ⟨h.1.alike hplace, trivial, h.1⟩
  title hν h := by
    subst hν
    exact ⟨h.1.alike hplace, rfl, trivial, h.1⟩
  enter hν _ := by
    subst hν
    exact ⟨_, ⟨_, rfl⟩, Variation.Names.cons_same_plain⟩
  members b hν := by
    subst hν
    cases b
    · exact Variation.Names.cons_same_plain
    · simp only [Variation.unresolved, if_true, Variation.Names.cons_same_plain]

theorem Program.inStep_down {source : String} (h : (compile source).hasError = false)
    (hts : (Scan.ofString source).tokens = ts) {σ : Scopes} {body : List Stmt}
    (hσ : Scopes.start.Alike (.ofPlacement P) (Token.Moved ts n) earlier
      (Variation.plain _) σ)
    (hbody : Spells (.declarations false body) (ts.map (Token.down n))) :
    InStep (.ofPlacement P) (Token.Moved ts n) earlier (Variation.plain _)
      (resolveStmts outermost (ofSource source).body) (resolveStmts outermost body) .start σ
      (AlikeStmts (Variation.ofPlacement P).resolved (Variation.plain _)) := by
  obtain ⟨hread, -, hclean⟩ := compile_body h
  have hspells := (spells_of_sound hread).2
  rw [hts] at hspells
  obtain ⟨φ, ⟨body', rfl, halike⟩, hspells'⟩ :=
    hspells.alike (Token.interchangeable_moved ts n) (Likeness.covers_ofTokens _)
      (Token.forall₂_moved ts n)
  -- There is only one program with these tokens.
  let s : Scan := ⟨ts.map (Token.down n), (Scan.ofString source).finish, []⟩
  have hread₁ := Grammar.program_of_spells (s := s) rfl hbody
  have hread₂ := Grammar.program_of_spells (s := s) rfl hspells'
  obtain ⟨rfl, -⟩ := Prod.mk.inj (hread₁.symm.trans hread₂)
  have hresolved := halike.resolveStmts outermost _ _ .start
  exact inStep_allWellFormed outermost _ (Program.wellFormed hread).1 hσ hclean
    (hresolved.weaken (Variation.weaker_moved hplace) rfl _ _)

end Moved

lemma Scopes.alike_start (V : Variation) (T : Token → Token → Prop) :
    Scopes.start.Alike V T [] V.plain .start := ⟨.nil, rfl, rfl, [], rfl, .nil⟩

theorem Program.inStep_self {source : String} (h : (compile source).hasError = false) :
    InStep .fixed (Token.Moved (Scan.ofString source).tokens 0) [] (Variation.plain _)
      (resolveStmts outermost (ofSource source).body)
      (resolveStmts outermost (ofSource source).body) .start .start
      (AlikeStmts Variation.fixed.resolved (Variation.plain _)) := by
  have hspells := (spells_of_sound (compile_body h).1).2
  have hdown : (Scan.ofString source).tokens.map (Token.down 0) = (Scan.ofString source).tokens :=
    (List.map_congr_left fun _ _ => rfl).trans (List.map_id _)
  rw [← hdown] at hspells
  refine inStep_down (P := .fixed) (fun hmoved => ?_) h rfl (Scopes.alike_start _ _) hspells
  obtain ⟨⟨u, hu, hline⟩, rfl⟩ := hmoved
  exact ⟨hline ▸ (Scan.line_of_mem_tokens hu).1, rfl⟩

theorem Variation.weaker_fixed {V : Variation} (hself : ∀ t : Token, 1 ≤ t.line → V.place t t) :
    Variation.fixed.resolved.Weaker V.resolved
      fun ν ν' => ν = Variation.fixed.plain ∧ ν' = V.plain where
  token h := by
    obtain ⟨-, -, hline, rfl⟩ := h
    exact ⟨rfl, rfl, hself _ hline⟩
  loop h := by
    obtain ⟨-, -, hline, rfl⟩ := h
    exact V.loop_of_place rfl rfl (hself _ hline)
  use {_ _ r r'} hν h := by
    obtain ⟨rfl, rfl⟩ := hν
    obtain ⟨name, depth⟩ := r
    obtain ⟨name', depth'⟩ := r'
    obtain ⟨hdepth, -, -, hline, hname⟩ := h
    cases hdepth
    cases hname
    refine ⟨rfl, rfl, ?_, hself _ hline⟩
    cases depth <;> rfl
  binder hν h := by
    obtain ⟨rfl, rfl⟩ := hν
    obtain ⟨-, -, hline, rfl⟩ := h
    exact ⟨rfl, rfl, hself _ hline⟩
  title hν h := by
    obtain ⟨rfl, rfl⟩ := hν
    obtain ⟨⟨-, -, hline, rfl⟩, -⟩ := h
    exact ⟨⟨rfl, rfl, hself _ hline⟩, rfl⟩
  enter hν h := by
    obtain ⟨rfl, rfl⟩ := hν
    obtain ⟨⟨r, hr⟩, rfl⟩ := h
    obtain rfl : r = id := hr
    exact ⟨V.plain, ⟨V.same, Names.cons_same_plain.symm⟩, Names.cons_same_plain, rfl⟩
  members b hν := by
    obtain ⟨rfl, rfl⟩ := hν
    cases b
    · exact ⟨Names.cons_same_plain, Names.cons_same_plain⟩
    · simp only [resolved, if_true, Names.cons_same_plain, and_self]

theorem Program.alike_self {V : Variation} (hself : ∀ t : Token, 1 ≤ t.line → V.place t t)
    {source : String} (h : (compile source).hasError = false) :
    AlikeStmts V.resolved V.plain (compile source).body (compile source).body := by
  have halike := (inStep_self h).result
  rw [(compile_body h).2.1]
  exact halike.weaken (Variation.weaker_fixed hself) ⟨rfl, rfl⟩ _ _

lemma Spells.declarations_append {b : Bool} {body body' : List Stmt} {us : List Token}
    (h : Spells (.declarations b body) ts) (h' : Spells (.declarations b body') us) :
    Spells (.declarations b (body ++ body')) (ts ++ us) := by
  generalize hφ : Phrase.declarations b body = φ at h
  induction h generalizing body with
  | noDeclarations =>
    cases hφ
    exact h'
  | declarations hs hmore _ ih =>
    cases hφ
    rw [List.append_assoc]
    exact .declarations hs (ih rfl)
  | _ => cases hφ

lemma Resolver.resolveStmts_append (around : Surroundings) (body body' : List Stmt)
    (σ : Scopes) :
    let τ := (resolveStmts around body).after σ
    (resolveStmts around (body ++ body')).after σ = (resolveStmts around body').after τ ∧
      (resolveStmts around (body ++ body')).result σ =
        (resolveStmts around body).result σ ++ (resolveStmts around body').result τ := by
  induction body generalizing σ with
  | nil => exact ⟨rfl, rfl⟩
  | cons s body ih =>
    obtain ⟨hafter, hresult⟩ := ih ((resolveStmt around s).after σ)
    exact ⟨hafter, congrArg ((resolveStmt around s).result σ :: ·) hresult⟩

theorem Program.ending_of_sound {source : String} (h : (compile source).hasError = false) :
    let σ := ending (ofSource source).body
    σ.stack = [] ∧ σ.reports = [] ∧
      ∀ t ∈ σ.unused, 1 ≤ t.line ∧ t.line ≤ Scan.lines source.toList := by
  obtain ⟨hread, -, -⟩ := compile_body h
  have hwell := (Program.wellFormed hread).1
  obtain ⟨-, hreports, -, us, -, hunused⟩ := (inStep_self h).scopes
  refine ⟨?_, hreports, fun t ht => ?_⟩
  · have hlength := (growing_resolveStmts outermost _ hwell .start).length
    rw [← Scopes.outline_eq_nil_iff]
    exact List.length_eq_zero_iff.mp hlength
  · obtain ⟨u, hu, hline⟩ := ((List.forall₂_and_left _ _).mp hunused).1 t ht
    have hbounds := Scan.line_of_mem_tokens hu
    rw [hline] at hbounds
    exact ⟨hbounds.1, Nat.le_trans hbounds.2 (Nat.le_of_eq (Nat.add_comm _ _))⟩

theorem Program.spells_join {a b : String} (ha : (ofSource a).hasError = false)
    (hb : (ofSource b).hasError = false) :
    let n := Scan.lines a.toList
    let whole := Scan.ofString (a ++ "\n" ++ b)
    whole.diagnostics = [] ∧ ∃ body,
      Spells (.declarations false body) ((Scan.ofString b).tokens.map (Token.down n)) ∧
      Spells (.declarations false ((ofSource a).body ++ body)) whole.tokens := by
  intro n whole
  obtain ⟨hscanA, hspellsA⟩ := spells_of_sound ha
  obtain ⟨hscanB, hspellsB⟩ := spells_of_sound hb
  obtain ⟨φ, ⟨body, rfl, -⟩, hspells⟩ :=
    hspellsB.alike (Token.interchangeable_moved _ n) (Likeness.covers_ofTokens _)
      (Token.forall₂_moved _ n)
  have htext : whole = Scan.ofChars (a.toList ++ '\n' :: b.toList) := by
    simp only [whole, Scan.ofString, String.toList_append, List.append_assoc]
    rfl
  rw [htext, Scan.diagnostics_join hscanA, Scan.tokens_join hscanA]
  exact ⟨congrArg (List.map _) hscanB, body, hspells, hspellsA.declarations_append hspells⟩

theorem Program.compile_join {a b : String} (ha : (compile a).hasError = false)
    (hb : (compile b).hasError = false) :
    let n := Scan.lines a.toList
    let whole := compile (a ++ "\n" ++ b)
    (∃ body, AlikeStmts (Variation.shift n).resolved (Variation.plain _)
        (compile b).body body ∧ whole.body = (compile a).body ++ body) ∧
      whole.diagnostics =
        (compile a).diagnostics ++ (compile b).diagnostics.map (Diagnostic.down n) := by
  intro n whole
  obtain ⟨hreadA, hbodyA, -⟩ := compile_body ha
  obtain ⟨hreadB, hbodyB, -⟩ := compile_body hb
  obtain ⟨hscanA, hspellsA⟩ := spells_of_sound hreadA
  obtain ⟨hscanB, hspellsB⟩ := spells_of_sound hreadB
  obtain ⟨hstack, hreports, hlines⟩ := ending_of_sound ha
  obtain ⟨-, hreportsB, hlinesB⟩ := ending_of_sound hb
  obtain ⟨hscan, body, hspells, hjoined⟩ := spells_join hreadA hreadB
  have hwhole : whole = _ := compile_of_spells hscan hjoined
  obtain ⟨hending, hresult⟩ := resolveStmts_append outermost (ofSource a).body body .start
  change ending _ = (resolveStmts outermost body).after (ending (ofSource a).body) at hending
  -- The second walk begins where the first one ends.
  have hstart : Scopes.start.Alike (.shift n)
      (Token.Moved (Scan.ofString b).tokens n) (ending (ofSource a).body).unused
      (Variation.plain _) (ending (ofSource a).body) :=
    ⟨hstack ▸ .nil, rfl, hreports, [], (List.append_nil _).symm, .nil⟩
  obtain ⟨⟨-, -, hreports', us, hunused, hmoved⟩, halike⟩ :=
    inStep_down (P := .shift n) (fun h => h.2) hb rfl hstart hspells
  have hdown : us = (ending (ofSource b).body).unused.map (Token.down n) :=
    Token.map_down_of_moved hmoved
  have hlater : ∀ t ∈ (ending (ofSource a).body).unused, ∀ u ∈ us, t.line < u.line := by
    intro t ht u hu
    rw [hdown] at hu
    obtain ⟨v, hv, rfl⟩ := List.mem_map.mp hu
    have := (hlines t ht).2
    have := (hlinesB v hv).1
    change t.line < v.line + n
    omega
  refine ⟨⟨(resolveStmts outermost body).result (ending (ofSource a).body), ?_, ?_⟩, ?_⟩
  · rw [hbodyB]
    exact halike
  · rw [hbodyA, hwhole]
    exact hresult
  · rw [hwhole, compile_of_spells hscanA hspellsA, compile_of_spells hscanB hspellsB, hending,
      hreports', hunused, hreports, hreportsB, Scopes.warnings_append hlater, hdown,
      Scopes.warnings_down]
    rfl

lemma Program.hasError_join {a b : String} (ha : (compile a).hasError = false)
    (hb : (compile b).hasError = false) : (compile (a ++ "\n" ++ b)).hasError = false := by
  have herrors : ∀ n, Diagnostic.hasError ((compile b).diagnostics.map (Diagnostic.down n)) =
      false := by
    intro n
    rw [Diagnostic.hasError, List.any_map]
    exact hb
  rw [hasError, (compile_join ha hb).2, Diagnostic.hasError, List.any_append]
  exact Bool.or_eq_false_iff.mpr ⟨ha, herrors _⟩

end Lox
