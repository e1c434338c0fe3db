/-!
# Runs that succeed

A sequence of steps succeeds exactly if each of its steps does, one after the other.  What
holds of every run, failing or not, is what each step keeps.
-/

namespace KernelGrid

variable {σ ε α β : Type}

theorem except_bind {x : Except ε α} {f : α → Except ε β} {b : β} :
    x >>= f = .ok b ↔ ∃ a, x = .ok a ∧ f a = .ok b := by
  cases x with
  | error e => simp [bind, Except.bind]
  | ok a => simp [bind, Except.bind]

theorem mapError_eq_ok {ε' : Type} {f : ε → ε'} {x : Except ε α} {a : α} :
    x.mapError f = .ok a ↔ x = .ok a := by
  cases x with
  | error e => constructor <;> intro h <;> cases h
  | ok b => constructor <;> intro h <;> cases h <;> rfl

theorem toOption_eq_some {x : Except ε α} {a : α} : x.toOption = some a ↔ x = .ok a := by
  cases x <;> simp [Except.toOption]

theorem exists_of_map_toOption {x : Except ε α} {f : α → β} {b : β}
    (h : x.toOption.map f = some b) : ∃ a, x = .ok a ∧ f a = b := by
  obtain ⟨a, ha, hb⟩ := Option.map_eq_some_iff.1 h
  exact ⟨a, toOption_eq_some.1 ha, hb⟩

theorem mapM_eq_some {f : α → Option β} {xs : List α} {ys : List β} :
    xs.mapM f = some ys ↔ xs.map f = ys.map some := by
  induction xs generalizing ys with
  | nil => cases ys <;> simp
  | cons x xs ih =>
      simp only [List.mapM_cons, List.map_cons, bind, pure, Option.bind_eq_some_iff]
      constructor
      · rintro ⟨y, hx, ys', hxs, ⟨⟩⟩
        rw [hx, ih.1 hxs, List.map_cons]
      · intro h
        cases ys with
        | nil => cases h
        | cons y ys =>
            obtain ⟨hx, hxs⟩ := List.cons.inj h
            exact ⟨y, hx, ys, ih.2 hxs, rfl⟩

def Runs (x : ExceptT ε (StateM σ) α) (s : σ) (a : α) (s' : σ) : Prop :=
  x s = (.ok a, s')

variable {s s' s'' : σ}

theorem runs_of_fst_eq {x : ExceptT ε (StateM σ) α} {a : α} (h : (x s).1 = .ok a) :
    Runs x s a (x s).2 :=
  Prod.ext h rfl

theorem Runs.state_eq {x : ExceptT ε (StateM σ) α} {a : α} (hrun : Runs x s a s') :
    (x s).2 = s' :=
  congrArg Prod.snd hrun

theorem bind_apply (x : ExceptT ε (StateM σ) α) (f : α → ExceptT ε (StateM σ) β) (s : σ) :
    (x >>= f) s =
      match x s with
      | (.ok a, s') => f a s'
      | (.error e, s') => (.error e, s') := by
  simp only [Bind.bind, ExceptT.bind, ExceptT.mk, StateT.bind]
  rcases x s with ⟨_ | a, s'⟩ <;> rfl

theorem map_apply (f : α → β) (x : ExceptT ε (StateM σ) α) (s : σ) :
    (f <$> x) s = ((x s).1.map f, (x s).2) := by
  rw [← bind_pure_comp, bind_apply]
  rcases x s with ⟨_ | a, s'⟩ <;> rfl

theorem get_bind_apply (f : σ → ExceptT ε (StateM σ) β) (s : σ) :
    ((MonadState.get : ExceptT ε (StateM σ) σ) >>= f) s = f s s := rfl

theorem runs_bind {x : ExceptT ε (StateM σ) α} {f : α → ExceptT ε (StateM σ) β} {b : β} :
    Runs (x >>= f) s b s'' ↔ ∃ a s', Runs x s a s' ∧ Runs (f a) s' b s'' := by
  simp only [Runs, bind_apply]
  constructor
  · intro h
    rcases hx : x s with ⟨_ | a, s'⟩
    · rw [hx] at h
      cases h
    · rw [hx] at h
      exact ⟨a, s', rfl, h⟩
  · rintro ⟨a, s', hx, hf⟩
    rw [hx]
    exact hf

theorem exists_runs_bind {x : ExceptT ε (StateM σ) α} {f : α → ExceptT ε (StateM σ) β} {a : α}
    {b : β} (hx : Runs x s a s') (hf : ∃ s'', Runs (f a) s' b s'') :
    ∃ s'', Runs (x >>= f) s b s'' := by
  obtain ⟨s'', hf⟩ := hf
  exact ⟨s'', runs_bind.2 ⟨a, s', hx, hf⟩⟩

theorem runs_pure {a b : α} :
    Runs (pure a : ExceptT ε (StateM σ) α) s b s' ↔ a = b ∧ s = s' := by
  constructor
  · intro h
    cases h
    exact ⟨rfl, rfl⟩
  · rintro ⟨rfl, rfl⟩
    rfl

theorem runs_map {x : ExceptT ε (StateM σ) α} {f : α → β} {b : β} :
    Runs (f <$> x) s b s' ↔ ∃ a, Runs x s a s' ∧ f a = b := by
  rw [← bind_pure_comp, runs_bind]
  constructor
  · rintro ⟨a, _, hx, h⟩
    obtain ⟨rfl, rfl⟩ := runs_pure.1 h
    exact ⟨a, hx, rfl⟩
  · rintro ⟨a, hx, rfl⟩
    exact ⟨a, s', hx, runs_pure.2 ⟨rfl, rfl⟩⟩

theorem not_runs_throw {e : ε} {a : α} : ¬Runs (throw e : ExceptT ε (StateM σ) α) s a s' := by
  intro h
  cases h

theorem runs_ofExcept {x : Except ε α} {a : α} :
    Runs (MonadExcept.ofExcept x : ExceptT ε (StateM σ) α) s a s' ↔ x = .ok a ∧ s = s' := by
  cases x with
  | error e => simp [MonadExcept.ofExcept, not_runs_throw]
  | ok b => simp [MonadExcept.ofExcept, runs_pure]

theorem runs_get {a : σ} : Runs (get : ExceptT ε (StateM σ) σ) s a s' ↔ s = a ∧ s = s' := by
  constructor
  · intro h
    cases h
    exact ⟨rfl, rfl⟩
  · rintro ⟨rfl, rfl⟩
    rfl

theorem runs_set {t : σ} {u : PUnit} :
    Runs (set t : ExceptT ε (StateM σ) PUnit) s u s' ↔ t = s' := by
  constructor
  · intro h
    cases h
    rfl
  · rintro rfl
    rfl

theorem runs_modify {f : σ → σ} {u : PUnit} :
    Runs (modify f : ExceptT ε (StateM σ) PUnit) s u s' ↔ f s = s' := by
  constructor
  · intro h
    cases h
    rfl
  · rintro rfl
    rfl

theorem runs_lift {x : StateM σ α} {a : α} :
    Runs (liftM x : ExceptT ε (StateM σ) α) s a s' ↔ x s = (a, s') := by
  have hlift : (liftM x : ExceptT ε (StateM σ) α) s = (.ok (x s).1, (x s).2) := rfl
  rw [Runs, hlift, Prod.ext_iff, Prod.ext_iff, Except.ok.injEq]

theorem runs_adapt {x : ExceptT ε (StateM σ) α} {f : ε → ε} {a : α} :
    Runs (ExceptT.adapt f x) s a s' ↔ Runs x s a s' := by
  have hadapt : ExceptT.adapt f x s = ((x s).1.mapError f, (x s).2) := rfl
  simp only [Runs, hadapt]
  rcases x s with ⟨_ | b, s''⟩
  · constructor
    · intro h
      cases h
    · intro h
      cases h
  · exact Iff.rfl

/-! ## What every run keeps -/

section

variable {τ : Type} {P : σ → Prop} {U : σ → τ → Prop} {known : List τ} {made : α → List τ}
  {made' : β → List τ}

/-- Whatever the outcome, the property of states is kept, and what can be used before can be used
afterwards, with what was made. -/
def Keeps (P : σ → Prop) (U : σ → τ → Prop) (known : List τ) (x : StateM σ α)
    (made : α → List τ) : Prop :=
  ∀ s, P s → (∀ t ∈ known, U s t) → P (x s).2 ∧ ∀ t ∈ made (x s).1 ++ known, U (x s).2 t

namespace Keeps

theorem pure {a : α} (ha : ∀ t ∈ made a, t ∈ known) :
    Keeps P U known (Pure.pure a : StateM σ α) made := by
  intro s hs hknown
  refine ⟨hs, fun t ht => hknown t ?_⟩
  exact (List.mem_append.1 ht).elim (ha t) id

theorem bind {x : StateM σ α} {f : α → StateM σ β} (hx : Keeps P U known x made)
    (hf : ∀ a, Keeps P U (made a ++ known) (f a) made') : Keeps P U known (x >>= f) made' := by
  intro s hs hknown
  obtain ⟨hs', hmade⟩ := hx s hs hknown
  obtain ⟨hs'', hmade'⟩ := hf (x s).1 (x s).2 hs' hmade
  refine ⟨hs'', fun t ht => hmade' t ?_⟩
  rw [List.mem_append] at ht ⊢
  exact ht.imp_right (List.mem_append_right _)

theorem mono {x : StateM σ α} {made₁ : α → List τ} (hx : Keeps P U known x made)
    (hmade : ∀ a, ∀ t ∈ made₁ a, t ∈ made a ++ known) : Keeps P U known x made₁ := by
  intro s hs hknown
  obtain ⟨hs', hall⟩ := hx s hs hknown
  refine ⟨hs', fun t ht => hall t ?_⟩
  exact (List.mem_append.1 ht).elim (hmade _ t) (List.mem_append_right _)

theorem comap {ρ : Type} {g : ρ → τ} {known : List ρ} {x : StateM σ α} {made : α → List ρ}
    (hx : Keeps P U (known.map g) x fun a => (made a).map g) :
    Keeps P (fun s t => U s (g t)) known x made := by
  intro s hs hknown
  obtain ⟨hs', hall⟩ := hx s hs (List.forall_mem_map.2 hknown)
  refine ⟨hs', fun t ht => hall (g t) ?_⟩
  rw [← List.map_append]
  exact List.mem_map_of_mem ht

theorem get (made : σ → List τ) (hmade : ∀ s, P s → ∀ t ∈ made s, U s t) :
    Keeps P U known (MonadState.get : StateM σ σ) made := by
  intro s hs hknown
  refine ⟨hs, fun t ht => ?_⟩
  exact (List.mem_append.1 ht).elim (hmade s hs t) (hknown t)

theorem forIn {xs : List β} {f : β → PUnit → StateM σ (ForInStep PUnit)} {u : PUnit}
    (hf : ∀ b ∈ xs, ∀ u, Keeps P U known (f b u) fun _ => []) :
    Keeps P U known (ForIn.forIn xs u f) fun _ => [] := by
  induction xs generalizing u with
  | nil => exact .pure (by simp)
  | cons b xs ih =>
      rw [List.forall_mem_cons] at hf
      rw [List.forIn_cons]
      refine .bind (hf.1 u) fun r => ?_
      cases r with
      | done u => exact .pure (by simp)
      | yield u => exact ih hf.2

theorem forM {xs : List β} {f : β → StateM σ PUnit}
    (hf : ∀ b ∈ xs, Keeps P U known (f b) fun _ => []) :
    Keeps P U known (xs.forM f) fun _ => [] := by
  induction xs with
  | nil => exact .pure (by simp)
  | cons b xs ih =>
      rw [List.forall_mem_cons] at hf
      exact .bind hf.1 fun _ => ih hf.2

theorem state {x : StateM σ α} (hx : Keeps P U [] x made) {s : σ} (hs : P s) : P (x s).2 :=
  (hx s hs (by simp)).1

end Keeps

def KeepsTrying (P : σ → Prop) (U : σ → τ → Prop) (known : List τ) (x : ExceptT ε (StateM σ) α)
    (made : α → List τ) : Prop :=
  Keeps P U known x.run fun | .ok a => made a | .error _ => []

namespace KeepsTrying

theorem of_cases {x : ExceptT ε (StateM σ) α}
    (hx : ∀ s, P s → (∀ t ∈ known, U s t) →
      (∃ e s', x s = (.error e, s') ∧ P s' ∧ ∀ t ∈ known, U s' t) ∨
        ∃ a s', x s = (.ok a, s') ∧ P s' ∧ ∀ t ∈ made a ++ known, U s' t) :
    KeepsTrying P U known x made := by
  intro s hs hknown
  change P (x s).2 ∧ ∀ t ∈ (match (x s).1 with | .ok a => made a | .error _ => []) ++ known,
    U (x s).2 t
  obtain ⟨e, s', hrun, hkept⟩ | ⟨a, s', hrun, hkept⟩ := hx s hs hknown
  · rw [hrun]
    exact hkept
  · rw [hrun]
    exact hkept

theorem lift {x : StateM σ α} (hx : Keeps P U known x made) :
    KeepsTrying P U known (liftM x : ExceptT ε (StateM σ) α) made := hx

theorem throw {e : ε} : KeepsTrying P U known (throw e : ExceptT ε (StateM σ) α) made :=
  fun _ hs hknown => ⟨hs, hknown⟩

theorem pure {a : α} (ha : ∀ t ∈ made a, t ∈ known) :
    KeepsTrying P U known (Pure.pure a : ExceptT ε (StateM σ) α) made :=
  fun _ hs hknown => ⟨hs, fun t ht => hknown t ((List.mem_append.1 ht).elim (ha t) id)⟩

theorem bind {x : ExceptT ε (StateM σ) α} {f : α → ExceptT ε (StateM σ) β}
    (hx : KeepsTrying P U known x made)
    (hf : ∀ a, KeepsTrying P U (made a ++ known) (f a) made') :
    KeepsTrying P U known (x >>= f) made' := by
  rw [KeepsTrying, ExceptT.run_bind]
  refine Keeps.bind hx ?_
  rintro (e | a)
  · exact Keeps.pure fun _ ht => nomatch ht
  · exact hf a

theorem mono {x : ExceptT ε (StateM σ) α} {made₁ : α → List τ}
    (hx : KeepsTrying P U known x made) (hmade : ∀ a, ∀ t ∈ made₁ a, t ∈ made a ++ known) :
    KeepsTrying P U known x made₁ := by
  refine Keeps.mono hx ?_
  rintro (e | a)
  · exact fun t ht => nomatch ht
  · exact hmade a

theorem comap {ρ : Type} {g : ρ → τ} {known : List ρ} {x : ExceptT ε (StateM σ) α}
    {made : α → List ρ} (hx : KeepsTrying P U (known.map g) x fun a => (made a).map g) :
    KeepsTrying P (fun s t => U s (g t)) known x made := by
  refine Keeps.comap (Keeps.mono hx ?_)
  rintro (e | a)
  · simp
  · exact fun t ht => List.mem_append_left _ ht

theorem map {x : ExceptT ε (StateM σ) α} {f : α → β}
    (hx : KeepsTrying P U known x fun a => made' (f a)) :
    KeepsTrying P U known (f <$> x) made' := by
  rw [← bind_pure_comp]
  exact .bind hx fun a => .pure fun _ ht => List.mem_append_left _ ht

theorem get (made : σ → List τ) (hmade : ∀ s, P s → ∀ t ∈ made s, U s t) :
    KeepsTrying P U known (MonadState.get : ExceptT ε (StateM σ) σ) made :=
  lift (.get made hmade)

theorem throw_bind {e : ε} {f : α → ExceptT ε (StateM σ) β} :
    KeepsTrying P U known ((MonadExcept.throw e : ExceptT ε (StateM σ) α) >>= f) made' :=
  fun _ hs hknown => ⟨hs, hknown⟩

theorem ofExcept {x : Except ε α} :
    KeepsTrying P U known (MonadExcept.ofExcept x : ExceptT ε (StateM σ) α) fun _ => [] := by
  cases x with
  | error e => exact throw
  | ok a => exact pure (by simp)

theorem forIn {xs : List β} {f : β → PUnit → ExceptT ε (StateM σ) (ForInStep PUnit)} {u : PUnit}
    (hf : ∀ b ∈ xs, ∀ u, KeepsTrying P U known (f b u) fun _ => []) :
    KeepsTrying P U known (ForIn.forIn xs u f) fun _ => [] := by
  induction xs generalizing u with
  | nil => exact .pure (by simp)
  | cons b xs ih =>
      rw [List.forall_mem_cons] at hf
      rw [List.forIn_cons]
      refine .bind (hf.1 u) fun r => ?_
      cases r with
      | done u => exact .pure (by simp)
      | yield u => exact ih hf.2

theorem forM {xs : List β} {f : β → ExceptT ε (StateM σ) PUnit}
    (hf : ∀ b ∈ xs, KeepsTrying P U known (f b) fun _ => []) :
    KeepsTrying P U known (xs.forM f) fun _ => [] := by
  induction xs with
  | nil => exact .pure (by simp)
  | cons b xs ih =>
      rw [List.forall_mem_cons] at hf
      exact .bind hf.1 fun _ => ih hf.2

theorem mapM {xs : List β} {f : β → ExceptT ε (StateM σ) α}
    (hf : ∀ b ∈ xs, ∀ known', (∀ t ∈ known, t ∈ known') → KeepsTrying P U known' (f b) made) :
    KeepsTrying P U known (xs.mapM f) fun as => as.flatMap made := by
  induction xs generalizing known with
  | nil => exact .pure (by simp)
  | cons b xs ih =>
      rw [List.forall_mem_cons] at hf
      rw [List.mapM_cons]
      refine .bind (hf.1 known fun _ => id) fun a => ?_
      refine .bind (ih ?_) fun as => .pure ?_
      · exact fun b hb known' hsub => hf.2 b hb known' fun t ht =>
          hsub t (List.mem_append_right _ ht)
      · intro t ht
        rw [List.flatMap_cons, List.mem_append] at ht
        rw [List.mem_append, List.mem_append]
        exact ht.elim (fun h => .inr (.inl h)) .inl

theorem state {x : ExceptT ε (StateM σ) α} (hx : KeepsTrying P U [] x made) {s : σ} (hs : P s) :
    P (x s).2 :=
  Keeps.state hx hs

theorem bind_state {x : ExceptT ε (StateM σ) α} {f : α → ExceptT ε (StateM σ) β} {s : σ}
    (hx : KeepsTrying P U known x made) (hs : P s) (hknown : ∀ t ∈ known, U s t)
    (hf : ∀ a s', P s' → (∀ t ∈ made a ++ known, U s' t) → P (f a s').2) :
    P ((x >>= f) s).2 := by
  have hkept := hx s hs hknown
  rw [bind_apply]
  rcases hrun : x s with ⟨_ | a, s'⟩
  all_goals
    have hrun' : x.run s = _ := hrun
    rw [hrun'] at hkept
  · exact hkept.1
  · exact hf a s' hkept.1 hkept.2

end KeepsTrying

end

end KernelGrid
