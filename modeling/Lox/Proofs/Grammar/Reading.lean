import Lox.Proofs.Grammar.Phrase

/-! What readers read: the rules by which a reader is put together from others. A reader is sound
if whatever it reads without a report is what is expected there. -/

namespace Lox

def following : List Token → Kind
  | [] => .finish
  | t :: _ => t.kind

@[simp] lemma following_nil : following [] = .finish := rfl

@[simp] lemma following_cons (t : Token) (ts : List Token) : following (t :: ts) = t.kind := rfl

namespace Cursor

structure Passes (c : Cursor) (ts : List Token) (new : List Diagnostic) (d : Cursor) : Prop where
  rest : c.rest = ts ++ d.rest
  reports : d.reports = c.reports ++ new
  finish : d.finish = c.finish
  errors : ∀ x ∈ new, x.isError = true

lemma Passes.refl (c : Cursor) : c.Passes [] [] c := ⟨rfl, by simp, rfl, by simp⟩

lemma Passes.trans {c d e : Cursor} {ts us : List Token} {new more : List Diagnostic}
    (h : c.Passes ts new d) (h' : d.Passes us more e) :
    c.Passes (ts ++ us) (new ++ more) e where
  rest := by rw [h.rest, h'.rest, List.append_assoc]
  reports := by rw [h'.reports, h.reports, List.append_assoc]
  finish := h'.finish.trans h.finish
  errors x hx := (List.mem_append.mp hx).elim (h.errors x) (h'.errors x)

lemma Passes.length_le {c d : Cursor} {ts : List Token} {new : List Diagnostic}
    (h : c.Passes ts new d) : d.rest.length ≤ c.rest.length := by
  rw [h.rest, List.length_append]
  omega

lemma Passes.lt_of_lt_succ {c d : Cursor} {t : Token} {n : Nat} (h : c.Passes [t] [] d)
    (hc : c.rest.length < n + 1) : d.rest.length < n := by
  rw [h.rest, List.length_append, List.length_singleton] at hc
  omega

lemma peek_kind {c : Cursor} (h : c.finish.kind = .finish) :
    c.peek.kind = following c.rest := by
  cases hc : c.rest <;> simp [peek, hc, h]

theorem passes_advance {c : Cursor} (hf : c.finish.kind = .finish) (h : c.peek.kind ≠ .finish) :
    c.Passes [c.peek] [] c.advance := by
  cases hc : c.rest with
  | nil => simp [peek, hc, hf] at h
  | cons t rest => exact ⟨by simp [peek, advance, hc], by simp [advance, hc],
      by simp [advance, hc], by simp⟩

lemma skipFrom_append (last : Token) (ts : List Token) :
    ∃ us, ts = us ++ (skipFrom last ts).2 := by
  induction ts generalizing last with
  | nil => exact ⟨[], rfl⟩
  | cons t rest ih =>
    unfold skipFrom
    split
    · exact ⟨[], rfl⟩
    · obtain ⟨us, hus⟩ := ih t
      exact ⟨t :: us, by simp [← hus]⟩

lemma passes_skipStatement (c : Cursor) : ∃ ts, c.Passes ts [] c.skipStatement := by
  obtain ⟨us, hus⟩ := skipFrom_append c.advance.last c.advance.rest
  cases hc : c.rest with
  | nil =>
    exact ⟨us, by simpa [advance, hc, skipStatement] using hus,
      by simp [skipStatement, advance, hc], by simp [skipStatement, advance, hc], by simp⟩
  | cons t rest => exact ⟨t :: us, by simpa [advance, hc, skipStatement] using hus,
      by simp [skipStatement, advance, hc], by simp [skipStatement, advance, hc], by simp⟩

end Cursor

namespace Reader

variable {α β : Type}

def SoundOn (pre : Cursor → Prop) (r : Reader α) (P : α → List Token → List Token → Prop) : Prop :=
  ∀ c : Cursor, c.finish.kind = .finish → pre c →
    match r c with
    | .ok x d => ∃ ts new, c.Passes ts new d ∧ (new = [] → P x ts d.rest)
    | .error _ d => ∃ ts new, c.Passes ts new d ∧ new ≠ []

abbrev Sound (r : Reader α) (P : α → List Token → List Token → Prop) : Prop :=
  SoundOn (fun _ => True) r P

variable {pre post : Cursor → Prop} {r : Reader α} {P Q : α → List Token → List Token → Prop}
  {t : Token}

lemma Sound.on (h : Sound r P) : SoundOn pre r P := fun c hc _ => h c hc trivial

lemma SoundOn.weaken (h : SoundOn pre r P) (hp : ∀ c, post c → pre c) : SoundOn post r P :=
  fun c hc ht => h c hc (hp c ht)

lemma SoundOn.mono (h : SoundOn pre r P) (hp : ∀ x ts rest, P x ts rest → Q x ts rest) :
    SoundOn pre r Q := by
  intro c hc ht
  have hr := h c hc ht
  cases hm : r c with
  | ok x d =>
    rw [hm] at hr
    obtain ⟨ts, new, hd, hx⟩ := hr
    exact ⟨ts, new, hd, fun hn => hp _ _ _ (hx hn)⟩
  | error e d => simpa only [hm] using hr

lemma SoundOn.map {f : α → β} (h : SoundOn pre r P) :
    SoundOn pre (f <$> r) fun y ts rest => ∃ x, y = f x ∧ P x ts rest := by
  intro c hc hp
  have hr := h c hc hp
  change match EStateM.map f r c with | .ok _ _ => _ | .error _ _ => _
  unfold EStateM.map
  cases hm : r c with
  | ok x d =>
    simp only [hm] at hr ⊢
    obtain ⟨ts, new, hd, hx⟩ := hr
    exact ⟨ts, new, hd, fun hn => ⟨x, rfl, hx hn⟩⟩
  | error e d => simpa only [hm] using hr

lemma sound_pure {x : α} : SoundOn pre (pure x) fun y ts _ => y = x ∧ ts = [] :=
  fun c _ _ => ⟨[], [], .refl c, fun _ => ⟨rfl, rfl⟩⟩

lemma SoundOn.bind {f : α → Reader β} {Q : α → β → List Token → List Token → Prop}
    (hpre : ∀ {c ts new d}, pre c → c.Passes ts new d → post d)
    (h : SoundOn pre r P) (hf : ∀ x, SoundOn post (f x) (Q x)) :
    SoundOn pre (r >>= f) fun y ts rest => ∃ x us vs, ts = us ++ vs ∧ P x us (vs ++ rest) ∧
      Q x y vs rest := by
  intro c hc ht
  have hr := h c hc ht
  change match EStateM.bind r f c with | .ok _ _ => _ | .error _ _ => _
  unfold EStateM.bind
  cases hm : r c with
  | error e d => simpa only [hm] using hr
  | ok x d =>
    rw [hm] at hr
    obtain ⟨us, new, hd, hx⟩ := hr
    have hfx := hf x d (hd.finish ▸ hc) (hpre ht hd)
    cases hn : f x d with
    | error e e' =>
      simp only [hn] at hfx ⊢
      obtain ⟨vs, more, he, hne⟩ := hfx
      exact ⟨us ++ vs, new ++ more, hd.trans he, by simp [hne]⟩
    | ok y e =>
      simp only [hn] at hfx ⊢
      obtain ⟨vs, more, he, hy⟩ := hfx
      refine ⟨us ++ vs, new ++ more, hd.trans he, fun hnil => ?_⟩
      obtain ⟨rfl, rfl⟩ := List.append_eq_nil_iff.mp hnil
      exact ⟨x, us, vs, rfl, he.rest ▸ hx rfl, hy rfl⟩

lemma Sound.bind {f : α → Reader β} {Q : α → β → List Token → List Token → Prop}
    (h : Sound r P) (hf : ∀ x, Sound (f x) (Q x)) :
    Sound (r >>= f) fun y ts rest => ∃ x us vs, ts = us ++ vs ∧ P x us (vs ++ rest) ∧
      Q x y vs rest :=
  SoundOn.bind (fun _ _ => trivial) h hf

theorem sound_look {f : Token → Reader α} (h : ∀ t, SoundOn (·.peek = t) (f t) P) :
    SoundOn pre (look >>= f) P :=
  fun c hc _ => h c.peek c hc rfl

theorem SoundOn.first (h : SoundOn (·.peek = t) r P) :
    SoundOn (·.peek = t) r fun x ts rest =>
      P x ts rest ∧ ∀ first us, ts = first :: us → first = t := by
  intro c hc ht
  have hr := h c hc ht
  cases hm : r c with
  | ok x d =>
    simp only [hm] at hr ⊢
    obtain ⟨ts, new, hd, hx⟩ := hr
    refine ⟨ts, new, hd, fun hn => ⟨hx hn, ?_⟩⟩
    rintro first us rfl
    simpa [Cursor.peek, hd.rest] using ht
  | error e d => simpa only [hm] using hr

lemma sound_skip (h : t.kind ≠ .finish) (hr : Sound r Q)
    (hp : ∀ x us rest, Q x us rest → P x (t :: us) rest) :
    SoundOn (·.peek = t) (skip >>= fun _ => r) P := by
  intro c hc ht
  subst ht
  have hd := Cursor.passes_advance hc h
  have hr := hr c.advance (hd.finish ▸ hc) trivial
  change match r c.advance with | .ok _ _ => _ | .error _ _ => _
  cases hm : r c.advance with
  | ok x e =>
    simp only [hm] at hr ⊢
    obtain ⟨us, new, he, hx⟩ := hr
    exact ⟨_, _, hd.trans he, fun hn => hp _ _ _ (hx (by simpa using hn))⟩
  | error e e' =>
    simp only [hm] at hr ⊢
    obtain ⟨us, new, he, hn⟩ := hr
    exact ⟨_, _, hd.trans he, by simpa using hn⟩

lemma sound_get {f : Cursor → Reader α} (h : ∀ d, pre d → SoundOn (· = d) (f d) P) :
    SoundOn pre (get >>= f) P :=
  fun c hc hp => h c hp c hc rfl

lemma passes_report (c : Cursor) (t : Token) {problem : Problem}
    (h : problem.severity = .error) :
    c.Passes [] [.atToken t problem] (c.report t problem) := by
  refine ⟨rfl, rfl, rfl, ?_⟩
  simp [Diagnostic.isError, Diagnostic.severity, Diagnostic.atToken, h]

lemma sound_report {problem : Problem} (h : problem.severity = .error) :
    SoundOn pre (report t problem) fun _ _ _ => False :=
  fun c _ _ => ⟨[], _, passes_report c t h, by simp⟩

lemma sound_fail {problem : Problem} (h : problem.severity = .error) :
    SoundOn pre (fail t problem : Reader α) P :=
  fun c _ _ => ⟨[], _, passes_report c t h, by simp⟩

lemma sound_ite {b : Bool} {r r' : Reader α} (h : b = true → SoundOn pre r P)
    (h' : b = false → SoundOn pre r' P) : SoundOn pre (if b then r else r') P := by
  cases b
  · exact h' rfl
  · exact h rfl

lemma sound_sees {kind : Kind} :
    SoundOn pre (sees kind) fun b ts rest => ts = [] ∧ b = decide (following rest = kind) := by
  intro c hc _
  refine ⟨[], [], .refl c, fun _ => ⟨rfl, ?_⟩⟩
  rw [← Cursor.peek_kind hc]
  rfl

lemma sound_seesOneOf {kinds : List Kind} :
    SoundOn pre (seesOneOf kinds) fun _ ts _ => ts = [] :=
  fun c _ _ => ⟨[], [], .refl c, fun _ => rfl⟩

theorem SoundOn.accept {kinds : List Kind} {f : Option Token → Reader α}
    {Q : Token → α → List Token → List Token → Prop} (h : .finish ∉ kinds)
    (hpre : ∀ {c t d}, pre c → c.Passes [t] [] d → post d)
    (hsome : ∀ t, SoundOn post (f (some t)) (Q t)) (hnone : SoundOn pre (f none) P) :
    SoundOn pre (accept? kinds >>= f) fun x ts rest =>
      (∃ t us, ts = t :: us ∧ t.kind ∈ kinds ∧ Q t x us rest) ∨
        P x ts rest ∧ following (ts ++ rest) ∉ kinds := by
  intro c hc hp
  change match EStateM.bind (accept? kinds) f c with | .ok _ _ => _ | .error _ _ => _
  unfold EStateM.bind
  by_cases hk : c.peek.kind ∈ kinds
  · have hd := Cursor.passes_advance hc (fun hf => h (hf ▸ hk))
    have hr : accept? kinds c = .ok (some c.peek) c.advance := by
      change (if kinds.contains c.peek.kind then skip >>= fun _ => pure (some c.peek)
        else pure none : Reader (Option Token)) c = _
      rw [if_pos (by simpa using hk)]
      rfl
    have hx := hsome c.peek c.advance (hd.finish ▸ hc) (hpre hp hd)
    simp only [hr]
    cases hm : f (some c.peek) c.advance with
    | ok x e =>
      simp only [hm] at hx ⊢
      obtain ⟨us, new, he, hy⟩ := hx
      exact ⟨_, _, hd.trans he, fun hn => .inl ⟨_, us, rfl, hk, hy (by simpa using hn)⟩⟩
    | error e e' =>
      simp only [hm] at hx ⊢
      obtain ⟨us, new, he, hn⟩ := hx
      exact ⟨_, _, hd.trans he, by simpa using hn⟩
  · have hr : accept? kinds c = .ok none c := by
      change (if kinds.contains c.peek.kind then skip >>= fun _ => pure (some c.peek)
        else pure none : Reader (Option Token)) c = _
      rw [if_neg (by simpa using hk)]
      rfl
    have hx := hnone c hc hp
    simp only [hr]
    cases hm : f none c with
    | ok x e =>
      simp only [hm] at hx ⊢
      obtain ⟨us, new, he, hy⟩ := hx
      refine ⟨us, new, he, fun hn => .inr ⟨hy hn, ?_⟩⟩
      rw [← he.rest, ← Cursor.peek_kind hc]
      exact hk
    | error e e' => simpa only [hm] using hx

lemma Sound.accept {kinds : List Kind} {f : Option Token → Reader α}
    {Q : Token → α → List Token → List Token → Prop} (h : .finish ∉ kinds)
    (hsome : ∀ t, Sound (f (some t)) (Q t)) (hnone : Sound (f none) P) :
    Sound (accept? kinds >>= f) fun x ts rest =>
      (∃ t us, ts = t :: us ∧ t.kind ∈ kinds ∧ Q t x us rest) ∨
        P x ts rest ∧ following (ts ++ rest) ∉ kinds :=
  SoundOn.accept h (fun _ _ => trivial) hsome hnone

lemma sound_expect {what : Expectation} :
    SoundOn pre (expect what) fun t ts _ => ts = [t] ∧ t.kind = what.kind := by
  refine sound_look fun t => ?_
  split
  · next ht =>
    have hk : t.kind ≠ .finish := by
      rw [ht]
      cases what <;> simp [Expectation.kind]
    refine sound_skip hk sound_pure ?_
    rintro _ _ rest ⟨rfl, rfl⟩
    exact ⟨rfl, ht⟩
  · exact sound_fail rfl

lemma sound_orElse {recovery : Reader α} {Q : α → List Token → List Token → Prop}
    (h : Sound r P) (hr : Sound recovery Q) : Sound (orElse r recovery) P := by
  intro c hc _
  have hx := h c hc trivial
  unfold orElse
  cases hm : r c with
  | ok x d => simpa only [hm] using hx
  | error e d =>
    simp only [hm] at hx ⊢
    obtain ⟨ts, new, hd, hn⟩ := hx
    have hy := hr d (hd.finish ▸ hc) trivial
    cases hm' : recovery d with
    | ok y e =>
      simp only [hm'] at hy ⊢
      obtain ⟨us, more, he, _⟩ := hy
      exact ⟨_, _, hd.trans he, fun hnil => absurd (List.append_eq_nil_iff.mp hnil).1 hn⟩
    | error e' e =>
      simp only [hm'] at hy ⊢
      obtain ⟨us, more, he, _⟩ := hy
      exact ⟨_, _, hd.trans he, fun hnil => absurd (List.append_eq_nil_iff.mp hnil).1 hn⟩

theorem sound_chain {ops : List Kind} {join : α → Token → α → α} {operand : Reader α}
    {R S : α → List Token → Prop} (hops : .finish ∉ ops)
    (hfirst : ∀ x ts, S x ts → R x ts)
    (hjoin : ∀ x y op ts us, op.kind ∈ ops → R x ts → S y us → R (join x op y) (ts ++ op :: us))
    (h : Sound operand fun x ts _ => S x ts) :
    Sound (chain ops join operand) fun x ts _ => R x ts := by
  have go : ∀ n left, Sound (chain.go ops join operand n left) fun x ts _ =>
      ∀ us, R left us → R x (us ++ ts) := by
    intro n
    induction n with
    | zero =>
      intro left
      refine sound_pure.mono ?_
      rintro _ _ _ ⟨rfl, rfl⟩ us hus
      simpa using hus
    | succ n ih =>
      intro left
      refine SoundOn.mono (Sound.accept hops
        (fun op => Sound.bind h fun right => ih (join left op right)) sound_pure) ?_
      rintro x _ rest (⟨op, _, rfl, hop, right, ts, us, rfl, hs, hx⟩ | ⟨⟨rfl, rfl⟩, -⟩) vs hvs
      · simpa using hx _ (hjoin _ _ op vs ts hop hvs hs)
      · simpa using hvs
  refine (Sound.bind h fun first => Sound.bind sound_seesOneOf
    (Q := fun _ x ts _ => ∀ us, R first us → R x (us ++ ts)) fun b => ?_).mono ?_
  · cases b
    · refine sound_pure.mono ?_
      rintro _ _ _ ⟨rfl, rfl⟩ us hus
      simpa using hus
    · exact sound_get fun d _ => (go d.rest.length first).on
  · rintro x _ rest ⟨first, us, vs, rfl, hs, _, ws, xs, rfl, rfl, hx⟩
    exact hx us (hfirst _ _ hs)

theorem commaList_go_succ (tooMany : Option Problem) (item : Reader α) (n count : Nat) :
    commaList.go tooMany item (n + 1) count =
      ((match tooMany with
        | some problem =>
          if maxArguments ≤ count then look >>= fun t => report t problem else pure ()
        | none => pure ()) >>= fun _ =>
      item >>= fun x => accept? [.comma] >>= fun o =>
        match o with
        | some _ => commaList.go tooMany item n (count + 1) >>= fun more => pure (x :: more)
        | none => pure [x]) := by
  cases tooMany with
  | none => rfl
  | some problem =>
    by_cases h : maxArguments ≤ count
    · simp only [commaList.go, if_pos h]
      rfl
    · simp only [commaList.go, if_neg h]
      rfl

theorem sound_commaList {tooMany : Option Problem} {item : Reader α}
    {S : α → List Token → Prop} {R : List α → List Token → Prop}
    (hproblem : ∀ p ∈ tooMany, p.severity = .error) (hlast : ∀ x ts, S x ts → R [x] ts)
    (hmore : ∀ x xs comma ts us, comma.kind = .comma → S x ts → R xs us →
      R (x :: xs) (ts ++ comma :: us))
    (h : Sound item fun x ts _ => S x ts) :
    Sound (commaList tooMany item) fun xs ts _ =>
      R xs ts ∧ (tooMany.isSome → xs.length ≤ maxArguments) := by
  have go : ∀ n count, SoundOn (·.rest.length < n) (commaList.go tooMany item n count)
      fun xs ts _ => R xs ts ∧ (tooMany.isSome → count + xs.length ≤ maxArguments) := by
    intro n
    induction n with
    | zero => exact fun _ c _ hn => absurd hn (Nat.not_lt_zero _)
    | succ n ih =>
      intro count
      rw [commaList_go_succ]
      refine SoundOn.mono (SoundOn.bind (fun hc hd => Nat.lt_of_le_of_lt hd.length_le hc)
        (P := fun _ ts _ => ts = [] ∧ (tooMany.isSome → count < maxArguments)) ?_ fun _ =>
        SoundOn.bind (fun hc hd => Nat.lt_of_le_of_lt hd.length_le hc) h.on fun x =>
        SoundOn.accept (by simp) (fun hc hd => hd.lt_of_lt_succ hc)
          (fun _ => SoundOn.bind (fun _ _ => trivial) (ih (count + 1)) fun more => sound_pure)
          sound_pure) ?_
      · cases htoo : tooMany with
        | none => exact sound_pure.mono fun _ _ _ hp => ⟨hp.2, by simp⟩
        | some problem =>
          by_cases hcount : maxArguments ≤ count
          · simp only [if_pos hcount]
            exact sound_look fun t => (sound_report (hproblem problem htoo)).mono
              fun _ _ _ hf => hf.elim
          · simp only [if_neg hcount]
            exact sound_pure.mono fun _ _ _ hp => ⟨hp.2, fun _ => Nat.lt_of_not_le hcount⟩
      · rintro xs _ rest ⟨_, _, _, rfl, ⟨rfl, hlt⟩, x, us, vs, rfl, hs, htail⟩
        obtain ⟨comma, _, rfl, hk, more, ws, _, rfl, ⟨hr, hc⟩, rfl, rfl⟩ | ⟨⟨rfl, rfl⟩, -⟩ := htail
        · refine ⟨by simpa using hmore _ _ _ _ _ (by simpa using hk) hs hr, fun ht => ?_⟩
          have := hc ht
          simp only [List.length_cons]
          omega
        · refine ⟨by simpa using hlast _ _ hs, fun ht => ?_⟩
          have := hlt ht
          simp only [List.length_cons, List.length_nil]
          omega
  refine sound_get fun d _ => ?_
  intro c hc hd
  subst hd
  refine (SoundOn.mono (go (c.rest.length + 1) 0)
    (Q := fun xs ts _ => R xs ts ∧ (tooMany.isSome → xs.length ≤ maxArguments)) ?_)
    c hc (Nat.lt_succ_self _)
  rintro xs ts rest ⟨hr, hc⟩
  exact ⟨hr, by simpa using hc⟩

theorem sound_collect {stop : Cursor → Bool} {item : Reader α} {S : α → List Token → Prop}
    {R : List α → List Token → Prop} (hnil : R [] [])
    (hcons : ∀ x xs ts us, S x ts → R xs us → R (x :: xs) (ts ++ us))
    (hlength : ∀ xs ts, R xs ts → xs.length ≤ ts.length)
    (h : Sound item fun x ts _ => S x ts) :
    Sound (collect stop item) fun xs ts rest =>
      R xs ts ∧ (rest = [] ∨ ∃ d : Cursor, d.rest = rest ∧ stop d = true) := by
  have go : ∀ n, Sound (collect.go stop item n) fun xs ts rest =>
      R xs ts ∧ (n ≤ xs.length ∨ ∃ d : Cursor, d.rest = rest ∧ stop d = true) := by
    intro n
    induction n with
    | zero =>
      refine sound_pure.mono ?_
      rintro _ _ rest ⟨rfl, rfl⟩
      exact ⟨hnil, .inl (Nat.le_refl _)⟩
    | succ n ih =>
      refine sound_get fun d _ => ?_
      by_cases hd : stop d = true
      · rw [if_pos hd]
        rintro c hc rfl
        exact ⟨[], [], .refl c, fun _ => ⟨hnil, .inr ⟨c, rfl, hd⟩⟩⟩
      · rw [if_neg hd]
        refine (Sound.bind h fun x => Sound.bind ih fun more => sound_pure).on.mono ?_
        rintro _ _ rest ⟨x, ts, _, rfl, hs, more, us, _, rfl, ⟨hr, hstop⟩, rfl, rfl⟩
        refine ⟨by simpa using hcons _ _ _ _ hs hr, ?_⟩
        exact hstop.imp (fun hle => Nat.succ_le_succ hle) (by simp)
  refine sound_get fun d _ => ?_
  rintro c hc rfl
  have hx := go c.rest.length c hc trivial
  cases hm : collect.go stop item c.rest.length c with
  | error e d => simpa only [hm] using hx
  | ok xs d =>
    simp only [hm] at hx ⊢
    obtain ⟨ts, new, hd, hp⟩ := hx
    refine ⟨ts, new, hd, fun hn => ⟨(hp hn).1, (hp hn).2.imp_left fun hle => ?_⟩⟩
    have hlen := congrArg List.length hd.rest
    have := hlength _ _ (hp hn).1
    rw [List.length_append] at hlen
    exact List.eq_nil_of_length_eq_zero (by omega)

end Reader

namespace Readers

open Reader

variable (inner : Readers)

lemma ite_bind {α β : Type} (b : Bool) (r r' : Reader α) (f : α → Reader β) :
    (if b then r >>= f else r' >>= f) = (if b then r else r') >>= f := by
  cases b <;> rfl

lemma readParams_eq (paren : Token) :
    readParams paren = sees .rightParen >>= fun b =>
      (if b then pure []
        else commaList (some .tooManyParameters) (expect .parameterName)) >>= fun names =>
      expect .parametersClosing >>= fun _ => pure ⟨paren.line, names⟩ := by
  unfold readParams
  simp only [ite_bind]

lemma readList_eq (bracket : Token) :
    inner.readList bracket = sees .rightBracket >>= fun b =>
      (if b then pure [] else commaList none inner.ternary) >>= fun elements =>
      expect .listClosing >>= fun _ => pure (.list bracket elements) := by
  unfold readList
  simp only [ite_bind]

lemma readVar_eq :
    inner.readVar = expect .variableName >>= fun name => accept? [.equal] >>= fun o =>
      (match o with
        | some _ => some <$> inner.readExpression
        | none => pure none) >>= fun init =>
      expect .variableEnd >>= fun _ => pure (.var name init) := by
  unfold readVar
  congr
  funext name
  congr
  funext o
  cases o <;> rfl

lemma readReturn_eq (keyword : Token) :
    inner.readReturn keyword = sees .semicolon >>= fun b =>
      (if b then pure none else some <$> inner.readExpression) >>= fun value =>
      expect .returnEnd >>= fun _ => pure (.returnValue keyword value) := by
  unfold readReturn
  simp only [ite_bind]

lemma readIf_eq (inLoop : Bool) (keyword : Token) :
    inner.readIf inLoop keyword = expect .ifParen >>= fun _ => inner.readExpression >>= fun c =>
      expect .ifClosing >>= fun _ => inner.statement inLoop >>= fun yes =>
      accept? [.elseWord] >>= fun o =>
      (match o with
        | some _ => some <$> inner.statement inLoop
        | none => pure none) >>= fun no => pure (.ifElse keyword c yes no) := by
  unfold readIf
  congr
  funext _
  congr
  funext c
  congr
  funext _
  congr
  funext yes
  congr
  funext o
  cases o <;> rfl

lemma readFor_eq (keyword : Token) :
    inner.readFor keyword = expect .forParen >>= fun _ => inner.readForInit >>= fun init =>
      sees .semicolon >>= fun b =>
      (if b then pure none else some <$> inner.readExpression) >>= fun condition =>
      expect .conditionEnd >>= fun _ => sees .rightParen >>= fun b =>
      (if b then pure none else some <$> inner.readExpression) >>= fun step =>
      expect .forClosing >>= fun _ => inner.statement true >>= fun body =>
      pure (expandFor keyword init condition step body) := by
  unfold readFor
  simp only [ite_bind]

lemma readFunction_eq (what : Declared) :
    inner.readFunction what = expect (.declaredName what) >>= fun name =>
      sees .leftBrace >>= fun b =>
      (if decide (what = .function) || !b then
        expect (.declaredParen what) >>= fun paren => some <$> readParams paren
        else pure none) >>= fun params =>
      expect (.declaredBody what) >>= fun brace => inner.readBody brace name params := by
  unfold readFunction
  congr
  funext name
  congr
  funext b
  rw [← ite_bind, bind_assoc]

end Readers

end Lox
