import Lox.Proofs.Scope.Construct
import Lox.Proofs.Scope.Distinct

/-! Tallies: while a program without errors is walked over, the bindings in its scopes keep count of
the declarations that have been read so far. -/

namespace Lox

namespace Table

variable {α : Type} {name : String}

lemma findIn_eq_none_iff {entries : List (String × α)} :
    findIn name entries = none ↔ name ∉ entries.map Prod.fst := by
  induction entries with
  | nil => simp [findIn]
  | cons e more ih =>
    by_cases h : e.1 = name
    · simp [findIn, h]
    · simp [findIn, h, ih, Ne.symm h]

theorem putIn_of_new {entries : List (String × α)} (h : findIn name entries = none) (x : α) :
    putIn name x entries = entries ++ [(name, x)] := by
  induction entries with
  | nil => rfl
  | cons e more ih =>
    by_cases he : e.1 = name
    · simp [findIn, he] at h
    · simp only [findIn, he, if_false] at h
      simp [putIn, he, ih h]

def changing (name : String) (f : α → α) (e : String × α) : String × α :=
  if e.1 = name then (e.1, f e.2) else e

lemma map_changing_of_not_mem {entries : List (String × α)} (h : name ∉ entries.map Prod.fst)
    (f : α → α) : entries.map (changing name f) = entries := by
  refine (List.map_congr_left fun e he => ?_).trans (List.map_id entries)
  have hne : e.1 ≠ name := fun heq => h (heq ▸ List.mem_map_of_mem he)
  exact if_neg hne

lemma entries_update {t : Table α} (h : t.names.Nodup) (f : α → α) :
    (t.update name f).entries = t.entries.map (changing name f) := by
  obtain ⟨entries⟩ := t
  have hput : ∀ x, findIn name entries = some x →
      putIn name (f x) entries = entries.map (changing name f) := by
    intro x hx
    unfold names at h
    induction entries with
    | nil => cases hx
    | cons e more ih =>
      obtain ⟨hhead, hmore⟩ := List.nodup_cons.mp h
      by_cases he : e.1 = name
      · subst he
        simp only [findIn, if_true, Option.some_inj] at hx
        simp [putIn, changing, hx, map_changing_of_not_mem hhead]
      · simp only [findIn, he, if_false] at hx
        simp [putIn, changing, he, ← ih hmore hx]
  unfold update find?
  cases hx : findIn name entries with
  | none => exact (map_changing_of_not_mem (findIn_eq_none_iff.mp hx) f).symm
  | some x => exact hput x hx

lemma names_update {t : Table α} (h : t.names.Nodup) (f : α → α) :
    (t.update name f).names = t.names := by
  rw [names, entries_update h, List.map_map]
  refine List.map_congr_left fun e _ => ?_
  rw [Function.comp_apply, changing]
  split <;> rfl

lemma nodup_put {t : Table α} (h : t.names.Nodup) (hnew : t.find? name = none) (x : α) :
    (t.put name x).names.Nodup := by
  rw [names, put, putIn_of_new hnew, List.map_append]
  refine List.nodup_append.mpr ⟨h, List.nodup_singleton name, fun a ha b hb heq => ?_⟩
  rw [heq, List.mem_singleton.mp hb] at ha
  exact findIn_eq_none_iff.mp hnew ha

end Table

structure Entry where
  name : String
  token : Token
  used : Bool
  tracked : Bool

def Entry.of? (name : String) (b : Binding) : Option Entry :=
  b.token.map fun t => ⟨name, t, b.used, b.tracked⟩

def Entry.mark (name : String) (e : Entry) : Entry :=
  if e.name = name then { e with used := true } else e

namespace Scope

def view (s : Scope) : List Entry := s.entries.filterMap fun e => Entry.of? e.1 e.2

lemma unused_eq (s : Scope) :
    s.unused = (s.view.filter fun e => e.tracked && !e.used).map Entry.token := by
  rw [Scope.unused, view, Table.values, List.filterMap_map, List.filter_filterMap,
    List.map_filterMap]
  refine List.filterMap_congr fun e _ => ?_
  obtain ⟨name, token, ready, used, tracked⟩ := e
  cases token <;> cases used <;> cases tracked <;> rfl

lemma view_put {s : Scope} {name : String} (h : s.find? name = none) (b : Binding) :
    view (s.put name b) = s.view ++ (Entry.of? name b).toList := by
  rw [view, Table.put, Table.putIn_of_new h, List.filterMap_append]
  rfl

lemma view_ready {s : Scope} (h : s.names.Nodup) (name : String) :
    view (s.update name fun b => { b with ready := true }) = s.view := by
  rw [view, Table.entries_update h, List.filterMap_map]
  refine List.filterMap_congr fun e _ => ?_
  rw [Function.comp_apply, Table.changing]
  split <;> rfl

lemma view_used {s : Scope} (h : s.names.Nodup) (name : String) :
    view (s.update name fun b => { b with used := true }) = s.view.map (Entry.mark name) := by
  rw [view, Table.entries_update h, List.filterMap_map, view, List.map_filterMap]
  refine List.filterMap_congr fun e _ => ?_
  obtain ⟨key, token, ready, used, tracked⟩ := e
  by_cases hkey : key = name <;> cases token <;>
    simp [Table.changing, Entry.of?, Entry.mark, hkey]

end Scope

def Entry.after (seen : List Located) (t : Token) : Entry :=
  ⟨t.lexeme, t, isRead seen t, t ∈ localsOf seen⟩

lemma Located.declared?_of_local? {p : Located} {t : Token} (h : p.local? = some t) :
    p.declared? = some t := by
  obtain ⟨T, c⟩ := p
  cases c with
  | declaration name =>
    cases T with
    | nil => cases h
    | cons => exact h
  | _ => cases h

lemma localsOf_sublist (ps : List Located) : (localsOf ps).Sublist (declaredBy ps) := by
  induction ps with
  | nil => exact .slnil
  | cons p ps ih =>
    unfold localsOf declaredBy at ih ⊢
    cases hlocal : p.local? with
    | some t =>
      rw [List.filterMap_cons_some hlocal,
        List.filterMap_cons_some (p.declared?_of_local? hlocal)]
      exact ih.cons_cons t
    | none =>
      rw [List.filterMap_cons_none hlocal]
      cases hdeclared : p.declared? with
      | none => rwa [List.filterMap_cons_none hdeclared]
      | some t =>
        rw [List.filterMap_cons_some hdeclared]
        exact ih.cons t

section

variable {ps qs : List Located} {p : Located} {t : Token}

lemma declaredBy_append (ps qs : List Located) :
    declaredBy (ps ++ qs) = declaredBy ps ++ declaredBy qs := List.filterMap_append

lemma localsOf_append (ps qs : List Located) :
    localsOf (ps ++ qs) = localsOf ps ++ localsOf qs := List.filterMap_append

lemma isRead_append (ps qs : List Located) (t : Token) :
    isRead (ps ++ qs) t = (isRead ps t || isRead qs t) := List.any_append

lemma isRead_singleton (p : Located) (t : Token) : isRead [p] t = p.reads t := by
  simp [isRead]

end

structure Scopes.Tallies (σ : Scopes) (seen : List Located) (opened : List (List Token)) :
    Prop where
  stack : σ.stack.map Scope.view = opened.map (List.map (Entry.after seen))
  keys : ∀ s ∈ σ.stack, s.names.Nodup
  known : opened.flatten ⊆ declaredBy seen
  distinct : opened.flatten.Nodup
  names : ∀ t ∈ declaredBy seen, t.IsName
  reads : ∀ t, isRead seen t = true → t ∈ declaredBy seen
  nodup : σ.unused.Nodup
  unused : ∀ t, t ∈ σ.unused ↔ t ∈ localsOf seen ∧ t ∉ opened.flatten ∧ isRead seen t = false

namespace Scopes

open Resolver

variable {seen : List Located} {opened : List (List Token)} {ts : List Token} {σ τ : Scopes}

theorem Tallies.meet (h : σ.Tallies seen opened) {p : Located} (hp : p.declared? = none)
    (hreads : ∀ t, p.reads t = true → t ∈ opened.flatten)
    (hstack : τ.stack.map Scope.view = opened.map (List.map (Entry.after (seen ++ [p]))))
    (hkeys : ∀ s ∈ τ.stack, s.names.Nodup) (hunused : τ.unused = σ.unused) :
    τ.Tallies (seen ++ [p]) opened := by
  have hlocal : p.local? = none := by
    cases hl : p.local? with
    | none => rfl
    | some t => rw [p.declared?_of_local? hl] at hp; cases hp
  have hdeclared : declaredBy (seen ++ [p]) = declaredBy seen := by
    rw [declaredBy_append, declaredBy, declaredBy, List.filterMap_cons_none hp, List.filterMap_nil,
      List.append_nil]
  have hlocals : localsOf (seen ++ [p]) = localsOf seen := by
    rw [localsOf_append, localsOf, localsOf, List.filterMap_cons_none hlocal, List.filterMap_nil,
      List.append_nil]
  refine ⟨hstack, hkeys, hdeclared ▸ h.known, h.distinct, hdeclared ▸ h.names, fun t ht => ?_,
    hunused ▸ h.nodup, fun t => ?_⟩
  · rw [isRead_append, isRead_singleton, Bool.or_eq_true] at ht
    rw [hdeclared]
    exact ht.elim (h.reads t) fun ht => h.known (hreads t ht)
  · rw [hunused, h.unused, hlocals, isRead_append, isRead_singleton]
    refine and_congr_right fun _ => and_congr_right fun hopened => ?_
    have hunread : p.reads t = false := Bool.eq_false_iff.mpr fun ht => hopened (hreads t ht)
    rw [hunread, Bool.or_false]

theorem Tallies.neutral (h : σ.Tallies seen opened) {p : Located} (hp : p.declared? = none)
    (hreads : ∀ t, p.reads t = false)
    (hviews : τ.stack.map Scope.view = σ.stack.map Scope.view)
    (hkeys : ∀ s ∈ τ.stack, s.names.Nodup) (hunused : τ.unused = σ.unused) :
    τ.Tallies (seen ++ [p]) opened := by
  have hreads' : ∀ t, p.reads t = true → t ∈ opened.flatten := fun t ht => by
    rw [hreads t] at ht
    cases ht
  have hnone : localsOf [p] = [] := by
    refine List.filterMap_eq_nil_iff.mpr fun q hq => ?_
    cases hl : q.local? with
    | none => rfl
    | some t =>
      rw [List.mem_singleton.mp hq] at hl
      rw [p.declared?_of_local? hl] at hp
      cases hp
  have hafter : Entry.after (seen ++ [p]) = Entry.after seen := by
    funext t
    simp [Entry.after, isRead_append, isRead_singleton, hreads t, localsOf_append, hnone]
  refine h.meet hp hreads' ?_ hkeys hunused
  rw [hviews, hafter]
  exact h.stack

lemma nodup_modify_update {stack : List Scope} (h : ∀ s ∈ stack, s.names.Nodup) (depth : Nat)
    (name : String) (f : Binding → Binding) :
    ∀ s ∈ stack.modify depth (·.update name f), s.names.Nodup := by
  intro s hs
  obtain ⟨i, hi⟩ := List.mem_iff_getElem?.mp hs
  rw [List.getElem?_modify] at hi
  obtain ⟨old, hold, rfl⟩ := Option.map_eq_some_iff.mp hi
  have hnames := h old (List.mem_of_getElem? hold)
  split
  · rw [Table.names_update hnames]
    exact hnames
  · exact hnames

lemma views_markUsed (h : ∀ s ∈ σ.stack, s.names.Nodup) (depth : Nat) (name : String) :
    (σ.markUsed depth name).stack.map Scope.view =
      (σ.stack.map Scope.view).modify depth (List.map (Entry.mark name)) := by
  refine List.ext_getElem? fun i => ?_
  unfold markUsed
  simp only [List.getElem?_map, List.getElem?_modify]
  cases hi : σ.stack[i]? with
  | none => rfl
  | some scope =>
    have hview := Scope.view_used (h scope (List.mem_of_getElem? hi)) name
    simp only [Option.map_some, Functor.map]
    split
    · exact congrArg some hview
    · rfl

theorem Tallies.eq_of_mem (h : σ.Tallies seen opened) {i j : Nat} {us : List Token} {t : Token}
    (hi : opened[i]? = some us) (ht : t ∈ us) (hj : t ∈ opened.getD j []) : i = j := by
  rw [List.getD_eq_getElem?_getD] at hj
  cases hj' : opened[j]? with
  | none => simp [hj'] at hj
  | some vs =>
    rw [hj', Option.getD_some] at hj
    obtain ⟨hilt, rfl⟩ := List.getElem?_eq_some_iff.mp hi
    obtain ⟨hjlt, rfl⟩ := List.getElem?_eq_some_iff.mp hj'
    have hpairs := List.pairwise_iff_getElem.mp (List.nodup_flatten.mp h.distinct).2
    rcases Nat.lt_trichotomy i j with hlt | heq | hlt
    · exact absurd hj (hpairs i j hilt hjlt hlt ht)
    · exact heq
    · exact absurd ht (hpairs j i hjlt hilt hlt hj)

theorem Tallies.markUsed (h : σ.Tallies seen opened) {T : Trail} (hT : T.scopes = opened)
    {target : Reference} {depth : Nat} (hdepth : target.depth = some depth)
    (own : Option Token) :
    (σ.markUsed depth target.name.lexeme).Tallies (seen ++ [⟨T, .read target own⟩]) opened := by
  have hreads : ∀ t, Located.reads t ⟨T, .read target own⟩ =
      (decide (target.name.lexeme = t.lexeme) && decide (t ∈ opened.getD depth [])) := by
    intro t
    simp [Located.reads, hdepth, hT]
  have hlocals : localsOf (seen ++ [⟨T, .read target own⟩]) = localsOf seen := by
    rw [localsOf_append]
    exact List.append_nil _
  refine h.meet rfl (fun t ht => ?_) ?_ (nodup_modify_update h.keys _ _ _) rfl
  · rw [hreads, Bool.and_eq_true, decide_eq_true_eq, decide_eq_true_eq,
      List.getD_eq_getElem?_getD] at ht
    cases hscope : opened[depth]? with
    | none => simp [hscope] at ht
    | some ts =>
      rw [hscope] at ht
      exact List.mem_flatten.mpr ⟨ts, List.mem_of_getElem? hscope, ht.2⟩
  · rw [views_markUsed h.keys, h.stack]
    refine List.ext_getElem? fun i => ?_
    simp only [List.getElem?_map, List.getElem?_modify]
    cases hi : opened[i]? with
    | none => rfl
    | some us =>
      have hread : ∀ t ∈ us, isRead (seen ++ [⟨T, .read target own⟩]) t =
          (isRead seen t || (decide (depth = i) && decide (t.lexeme = target.name.lexeme))) := by
        intro t ht
        have hscope : t ∈ opened.getD depth [] ↔ depth = i := by
          refine ⟨fun hmem => (h.eq_of_mem hi ht hmem).symm, fun heq => ?_⟩
          rw [heq, List.getD_eq_getElem?_getD, hi]
          exact ht
        rw [isRead_append, isRead_singleton, hreads]
        simp only [hscope, eq_comm (a := target.name.lexeme), Bool.and_comm]
      have hafter : ∀ t ∈ us, Entry.after (seen ++ [⟨T, .read target own⟩]) t =
          (if depth = i then Entry.mark target.name.lexeme else id) (Entry.after seen t) := by
        intro t ht
        unfold Entry.after
        rw [hread t ht, hlocals]
        by_cases hi : depth = i
        · by_cases hname : t.lexeme = target.name.lexeme <;> simp [hi, hname, Entry.mark]
        · simp [hi]
      simp only [Option.map_some, Functor.map]
      rw [List.map_congr_left hafter]
      split <;> simp

lemma after_find (target : Reference) (isRead : Bool) (σ : Scopes) :
    (find target isRead).after σ =
      if isRead then
        (σ.depth? target.name.lexeme).elim σ fun depth => σ.markUsed depth target.name.lexeme
      else σ := by
  unfold Resolver.after find
  simp only [bind, StateT.bind, get, getThe, MonadStateOf.get, StateT.get, pure]
  cases σ.depth? target.name.lexeme with
  | none => cases isRead <;> rfl
  | some depth => cases isRead <;> rfl

lemma Tallies.afterRead (h : σ.Tallies seen opened) {T : Trail} (hT : T.scopes = opened)
    {target : Reference} (hfresh : target.IsFresh) (own : Option Token)
    (hclean : Diagnostic.hasError ((readName target).after σ).reports = false) :
    ((readName target).after σ).Tallies
      (seen ++ [⟨T, .read ((readName target).result σ) own⟩]) opened := by
  rw [result_readName hfresh]
  have hafter : (readName target).after σ = (find target true).after σ := by
    rw [Resolver.after, readName_eq] at hclean ⊢
    split at hclean
    · exact ((keeping_find target true).absurd_report rfl hclean).elim
    · rfl
  rw [hafter, after_find, if_pos rfl]
  cases hdepth : σ.depth? target.name.lexeme with
  | none =>
    refine h.neutral rfl (fun t => ?_) rfl h.keys rfl
    simp [Located.reads, Reference.at, hdepth]
  | some depth =>
    have hat : (target.at σ).depth = some depth := hdepth
    exact h.markUsed hT hat own

theorem Tallies.findReserved (h : σ.Tallies seen opened) {target : Reference}
    (hname : ∀ t : Token, t.IsName → t.lexeme ≠ target.name.lexeme) {p : Located}
    (hp : p.declared? = none) (hreads : ∀ t, p.reads t = false) :
    ((find target true).after σ).Tallies (seen ++ [p]) opened := by
  rw [after_find, if_pos rfl]
  cases σ.depth? target.name.lexeme with
  | none => exact h.neutral hp hreads rfl h.keys rfl
  | some depth =>
    refine h.neutral hp hreads ?_ (nodup_modify_update h.keys _ _ _) rfl
    refine (views_markUsed h.keys _ _).trans ?_
    rw [h.stack]
    refine List.ext_getElem? fun i => ?_
    simp only [List.getElem?_map, List.getElem?_modify]
    cases hi : opened[i]? with
    | none => rfl
    | some us =>
      have hother : ∀ t ∈ us, Entry.mark target.name.lexeme (Entry.after seen t) =
          Entry.after seen t := fun t ht =>
        if_neg (hname t (h.names t (h.known (List.mem_flatten.mpr
          ⟨us, List.mem_of_getElem? hi, ht⟩))))
      simp only [Option.map_some, Functor.map]
      split
      · rw [List.map_map]
        exact congrArg some (List.map_congr_left hother)
      · rfl

lemma Tallies.same (h : σ.Tallies seen opened)
    (hviews : τ.stack.map Scope.view = σ.stack.map Scope.view)
    (hkeys : ∀ s ∈ τ.stack, s.names.Nodup) (hunused : τ.unused = σ.unused) :
    τ.Tallies seen opened :=
  ⟨hviews.trans h.stack, hkeys, h.known, h.distinct, h.names, h.reads, hunused ▸ h.nodup,
    hunused ▸ h.unused⟩

lemma Tallies.define (h : σ.Tallies seen opened) (t : Token) :
    (σ.define t).Tallies seen opened := by
  unfold Scopes.define updateInnermost
  cases hs : σ.stack with
  | nil => exact h
  | cons scope outer =>
    obtain ⟨hscope, houter⟩ := List.forall_mem_cons.mp (hs ▸ h.keys)
    refine h.same ?_ (List.forall_mem_cons.mpr ⟨?_, houter⟩) rfl
    · rw [hs, List.map_cons, Scope.view_ready hscope, List.map_cons]
    · rw [Table.names_update hscope]
      exact hscope

lemma declare_of_new {t : Token} (h : σ.innermost? t.lexeme = none) (tracked : Bool) :
    σ.declare t tracked = σ.updateInnermost (·.put t.lexeme ⟨some t, false, false, tracked⟩) := by
  unfold declare
  rw [h]
  rfl

section

variable {p : Located} {t : Token} {tracked : Bool}

theorem Tallies.met (h : σ.Tallies seen opened) (hp : p.declared? = some t)
    (hreads : ∀ u, p.reads u = false) (hname : t.IsName) :
    t ∈ declaredBy (seen ++ [p]) ∧ declaredBy seen ⊆ declaredBy (seen ++ [p]) ∧
      (∀ u ∈ declaredBy (seen ++ [p]), u.IsName) ∧
      ∀ u, isRead (seen ++ [p]) u = isRead seen u := by
  have hdeclared : declaredBy (seen ++ [p]) = declaredBy seen ++ [t] := by
    rw [declaredBy_append]
    simp [declaredBy, hp]
  rw [hdeclared]
  refine ⟨List.mem_append_right _ List.mem_cons_self, List.subset_append_left _ _,
    List.forall_mem_append.mpr ⟨h.names, List.forall_mem_singleton.mpr hname⟩, fun u => ?_⟩
  rw [isRead_append, isRead_singleton, hreads, Bool.or_false]

lemma Tallies.declareGlobal (h : σ.Tallies seen []) (hp : p.declared? = some t)
    (hlocal : p.local? = none) (hreads : ∀ u, p.reads u = false) (hname : t.IsName)
    (f : Scope → Scope) : (σ.updateInnermost f).Tallies (seen ++ [p]) [] := by
  obtain ⟨-, hmore, hnames, hread⟩ := h.met hp hreads hname
  have hstack : σ.stack = [] := List.map_eq_nil_iff.mp h.stack
  have hlocals : localsOf (seen ++ [p]) = localsOf seen := by
    rw [localsOf_append]
    simp [localsOf, hlocal]
  rw [updateInnermost, hstack]
  refine ⟨h.stack, h.keys, List.nil_subset _, List.nodup_nil, hnames,
    fun u hu => hmore (h.reads u (hread u ▸ hu)), h.nodup, fun u => ?_⟩
  rw [hlocals, hread]
  exact h.unused u

lemma Tallies.declareLocal (h : σ.Tallies seen (ts :: opened)) (hp : p.declared? = some t)
    (hlocal : p.local? = if tracked then some t else none) (hreads : ∀ u, p.reads u = false)
    (hname : t.IsName) (hnew : t ∉ declaredBy seen)
    (hundeclared : σ.innermost? t.lexeme = none) :
    (σ.updateInnermost (·.put t.lexeme ⟨some t, false, false, tracked⟩)).Tallies (seen ++ [p])
      ((ts ++ [t]) :: opened) := by
  obtain ⟨hmet, hmore, hnames, hread⟩ := h.met hp hreads hname
  have hlocals : ∀ u, u ∈ localsOf (seen ++ [p]) ↔ u ∈ localsOf seen ∨ (tracked ∧ u = t) := by
    intro u
    rw [localsOf_append]
    cases tracked <;> simp [localsOf, hlocal]
  have hother : t ∉ (ts :: opened).flatten := fun ht => hnew (h.known ht)
  have hold : ∀ us ∈ ts :: opened, us.map (Entry.after (seen ++ [p])) =
      us.map (Entry.after seen) := by
    refine fun us hus => List.map_congr_left fun u hu => ?_
    have hne : u ≠ t := fun heq => hother (heq ▸ List.mem_flatten.mpr ⟨us, hus, hu⟩)
    simp [Entry.after, hread, hlocals, hne]
  have hopened : ((ts ++ [t]) :: opened).flatten.Perm (t :: (ts :: opened).flatten) := by
    simp only [List.flatten_cons, List.append_assoc, List.singleton_append]
    exact List.perm_middle
  cases hstack : σ.stack with
  | nil =>
    have hviews := h.stack
    rw [hstack] at hviews
    cases hviews
  | cons scope outer =>
    have hfind : scope.find? t.lexeme = none := by
      rw [innermost?, hstack] at hundeclared
      exact hundeclared
    have hviews := h.stack
    have hkeys := h.keys
    rw [hstack, List.map_cons, List.map_cons] at hviews
    rw [hstack] at hkeys
    obtain ⟨hview, houter⟩ := List.cons.inj hviews
    obtain ⟨hscope, hkeys⟩ := List.forall_mem_cons.mp hkeys
    rw [updateInnermost, hstack]
    refine ⟨?_, List.forall_mem_cons.mpr ⟨Table.nodup_put hscope hfind _, hkeys⟩, ?_, ?_, hnames,
      fun u hu => hmore (h.reads u (hread u ▸ hu)), h.nodup, fun u => ?_⟩
    · have hfresh : Entry.after (seen ++ [p]) t = ⟨t.lexeme, t, false, tracked⟩ := by
        have hunread : isRead seen t = false :=
          Bool.eq_false_iff.mpr fun ht => hnew (h.reads t ht)
        have hunlisted : t ∉ localsOf seen := fun ht => hnew ((localsOf_sublist seen).subset ht)
        simp [Entry.after, hread, hunread, hlocals, hunlisted]
      rw [List.map_cons, List.map_cons, Scope.view_put hfind, hview, List.map_append, houter,
        hold ts List.mem_cons_self, List.map_singleton, hfresh]
      refine congrArg (List.cons _) (List.map_congr_left fun us hus => ?_)
      exact (hold us (List.mem_cons_of_mem _ hus)).symm
    · refine fun u hu => ?_
      rcases List.mem_cons.mp (hopened.mem_iff.mp hu) with rfl | hu
      · exact hmet
      · exact hmore (h.known hu)
    · exact hopened.nodup_iff.mpr (List.nodup_cons.mpr ⟨hother, h.distinct⟩)
    · have hunread : u = t → u ∉ localsOf seen := by
        rintro rfl ht
        exact hnew ((localsOf_sublist seen).subset ht)
      rw [hlocals, hread, hopened.mem_iff, List.mem_cons]
      refine (h.unused u).trans ?_
      by_cases hut : u = t <;> simp [hut]
      intro hl
      exact absurd hl (hut ▸ hunread hut)

lemma Tallies.declare {T : Trail} (h : σ.Tallies seen T.scopes) (hp : p.declared? = some t)
    (hlocal : p.local? = if tracked && !T.isEmpty then some t else none)
    (hreads : ∀ u, p.reads u = false) (hname : t.IsName) (hnew : t ∉ declaredBy seen)
    (hclean : Diagnostic.hasError (σ.declare t tracked).reports = false) :
    (σ.declare t tracked).Tallies (seen ++ [p]) (T.declare [t]).scopes := by
  have hundeclared := innermost?_of_declare hclean
  rw [declare_of_new hundeclared]
  cases T with
  | nil =>
    rw [List.isEmpty_nil, Bool.not_true, Bool.and_false] at hlocal
    exact h.declareGlobal hp hlocal hreads hname _
  | cons e T =>
    rw [List.isEmpty_cons, Bool.not_false, Bool.and_true] at hlocal
    exact h.declareLocal hp hlocal hreads hname hnew hundeclared

end

lemma Tallies.enter (h : σ.Tallies seen opened) : σ.enter.Tallies seen ([] :: opened) :=
  ⟨congrArg (List.cons []) h.stack, List.forall_mem_cons.mpr ⟨List.nodup_nil, h.keys⟩, h.known,
    h.distinct, h.names, h.reads, h.nodup, h.unused⟩

lemma Tallies.enterImplicit (h : σ.Tallies seen opened) (name : String) :
    (σ.enter.declareImplicit name).Tallies seen ([] :: opened) :=
  ⟨congrArg (List.cons []) h.stack, List.forall_mem_cons.mpr ⟨List.nodup_singleton name, h.keys⟩,
    h.known, h.distinct, h.names, h.reads, h.nodup, h.unused⟩

lemma Tallies.leave (h : σ.Tallies seen (ts :: opened)) : σ.leave.Tallies seen opened := by
  cases hstack : σ.stack with
  | nil =>
    have hviews := h.stack
    rw [hstack] at hviews
    cases hviews
  | cons scope outer =>
    have hviews := h.stack
    have hkeys := h.keys
    rw [hstack, List.map_cons, List.map_cons] at hviews
    rw [hstack] at hkeys
    obtain ⟨hview, houter⟩ := List.cons.inj hviews
    have hdistinct := h.distinct
    rw [List.flatten_cons] at hdistinct
    obtain ⟨hts, hopened, hdisjoint⟩ := List.nodup_append.mp hdistinct
    have hunused : scope.unused = ts.filter fun t => t ∈ localsOf seen && !isRead seen t := by
      rw [Scope.unused_eq, hview, List.filter_map, List.map_map]
      exact List.map_id _
    unfold Scopes.leave
    rw [hstack]
    refine ⟨houter, (List.forall_mem_cons.mp hkeys).2, fun t ht => h.known ?_, hopened, h.names,
      h.reads, ?_, fun t => ?_⟩
    · exact List.mem_append_right ts ht
    · refine List.nodup_append.mpr ⟨h.nodup, hunused ▸ hts.filter _, fun t ht u hu heq => ?_⟩
      subst heq
      rw [hunused] at hu
      exact ((h.unused t).mp ht).2.1 (List.mem_append_left _ (List.mem_filter.mp hu).1)
    · change t ∈ σ.unused ++ scope.unused ↔ _
      rw [hunused, List.mem_append, h.unused, List.mem_filter, List.flatten_cons, List.mem_append]
      have hother : t ∈ ts → t ∉ opened.flatten := fun ht ht' => hdisjoint t ht t ht' rfl
      simp only [Bool.and_eq_true, decide_eq_true_eq, Bool.not_eq_true']
      tauto

end Scopes

end Lox
