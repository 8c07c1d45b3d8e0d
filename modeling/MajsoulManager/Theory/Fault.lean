/-
# Theory.Fault — computations that return, fail, or panic

`Outcome ε α` is a computation that returns a value, fails with an `ε` its caller
can handle, or panics.  The partial operations of a checked runtime (`index`,
`update`, `slice`) panic outside their domain.

`Panics` is characterised through every way of composing computations: through a
bind (`bind_panics`), and through a loop that stops at its first failure
(`foldlM_panics`, `mapM_panics`): the loop panics exactly when some element
panics and every element before it went through.  `Yields` is the other side:
the computation returns, with a postcondition that composes through binds and
loops (`Yields.bind`, `foldlM_yields`).
-/
import MajsoulManager.Theory.Machine

namespace MajsoulManager.Theory

set_option autoImplicit false

/-- A computation that returned, failed, or panicked. -/
inductive Outcome (ε α : Type) where
  | ok (a : α)
  | err (e : ε)
  | panic
  deriving DecidableEq, Repr

namespace Outcome

variable {ε α β σ : Type}

protected def bind (x : Outcome ε α) (f : α → Outcome ε β) : Outcome ε β :=
  match x with
  | ok a => f a
  | err e => err e
  | panic => panic

instance : Monad (Outcome ε) where
  pure := ok
  bind := Outcome.bind

instance : LawfulMonad (Outcome ε) :=
  LawfulMonad.mk' _ (by intro α x; cases x <;> rfl) (by intros; rfl)
    (by intro α β γ x f g; cases x <;> rfl)

def Panics (x : Outcome ε α) : Prop := x = panic

def Returns (x : Outcome ε α) : Prop := ∃ a, x = ok a

instance (x : Outcome ε α) : Decidable x.Panics :=
  match x with
  | panic => isTrue rfl
  | err _ => isFalse (by simp [Panics])
  | ok _ => isFalse (by simp [Panics])

instance (x : Outcome ε α) : Decidable x.Returns :=
  match x with
  | ok a => isTrue ⟨a, rfl⟩
  | err _ => isFalse (by simp [Returns])
  | panic => isFalse (by simp [Returns])

/-- Reading a vector at an index. -/
def index (items : List α) (i : Nat) : Outcome ε α :=
  match items[i]? with
  | some a => ok a
  | none => panic

/-- Writing a vector at an index. -/
def update (items : List α) (i : Nat) (f : α → α) : Outcome ε (List α) :=
  if i < items.length then ok (items.modify i f) else panic

/-- Writing a vector at an index, under a condition. -/
def updateIf (writes : Bool) (items : List α) (i : Nat) (f : α → α) : Outcome ε (List α) :=
  if writes then update items i f else ok items

/-- `&items[low..high]`. -/
def slice (items : List α) (low high : Nat) : Outcome ε (List α) :=
  if low ≤ high ∧ high ≤ items.length then ok ((items.drop low).take (high - low)) else panic

/-- A computation that cannot fail, used where failing is possible. -/
def embed (x : Outcome Empty α) : Outcome ε α :=
  match x with
  | ok a => ok a
  | panic => panic

/-- A failure under the caller's own error type. -/
def mapErr {ε' : Type} (f : ε → ε') (x : Outcome ε α) : Outcome ε' α :=
  match x with
  | ok a => ok a
  | err e => err (f e)
  | panic => panic

/-! ## When a computation panics -/

@[simp] theorem ok_panics (a : α) : ¬ (ok a : Outcome ε α).Panics := by simp [Panics]

@[simp] theorem err_panics (e : ε) : ¬ (err e : Outcome ε α).Panics := by simp [Panics]

@[simp] theorem panic_panics : (panic : Outcome ε α).Panics := rfl

@[simp] theorem ok_returns (a : α) : (ok a : Outcome ε α).Returns := ⟨a, rfl⟩

@[simp] theorem err_returns (e : ε) : ¬ (err e : Outcome ε α).Returns := by simp [Returns]

@[simp] theorem panic_returns : ¬ (panic : Outcome ε α).Returns := by simp [Returns]

@[simp] theorem pure_eq (a : α) : (pure a : Outcome ε α) = ok a := rfl

@[simp] theorem ok_bind (a : α) (f : α → Outcome ε β) : (ok a >>= f) = f a := rfl

@[simp] theorem err_bind (e : ε) (f : α → Outcome ε β) : (err e >>= f) = err e := rfl

@[simp] theorem panic_bind (f : α → Outcome ε β) : (panic >>= f) = panic := rfl

@[simp] theorem map_ok (a : α) (f : α → β) : (f <$> (ok a : Outcome ε α)) = ok (f a) := rfl

@[simp] theorem map_err (e : ε) (f : α → β) : (f <$> (err e : Outcome ε α)) = err e := rfl

@[simp] theorem map_panic (f : α → β) : (f <$> (panic : Outcome ε α)) = panic := rfl

theorem Returns.not_panics {x : Outcome ε α} (returned : x.Returns) : ¬ x.Panics := by
  obtain ⟨a, rfl⟩ := returned
  simp

theorem bind_panics {x : Outcome ε α} {f : α → Outcome ε β} :
    (x >>= f).Panics ↔ x.Panics ∨ ∃ a, x = ok a ∧ (f a).Panics := by
  cases x <;> simp [Panics]

theorem bind_eq_ok {x : Outcome ε α} {f : α → Outcome ε β} {b : β} :
    (x >>= f) = ok b ↔ ∃ a, x = ok a ∧ f a = ok b := by
  cases x <;> simp

theorem map_eq_ok {x : Outcome ε α} {f : α → β} {b : β} :
    (f <$> x) = ok b ↔ ∃ a, x = ok a ∧ f a = b := by
  cases x <;> simp

theorem map_panics {x : Outcome ε α} {f : α → β} : (f <$> x).Panics ↔ x.Panics := by
  cases x <;> simp

theorem map_returns {x : Outcome ε α} {f : α → β} : (f <$> x).Returns ↔ x.Returns := by
  cases x <;> simp

theorem embed_panics {x : Outcome Empty α} : (embed x : Outcome ε α).Panics ↔ x.Panics := by
  match x with
  | ok a => simp [embed]
  | panic => simp [embed]

theorem embed_eq_ok {x : Outcome Empty α} {a : α} : (embed x : Outcome ε α) = ok a ↔ x = ok a := by
  match x with
  | ok b => simp [embed]
  | panic => simp [embed]

theorem mapErr_panics {ε' : Type} {f : ε → ε'} {x : Outcome ε α} :
    (mapErr f x).Panics ↔ x.Panics := by
  cases x <;> simp [mapErr]

theorem mapErr_eq_ok {ε' : Type} {f : ε → ε'} {x : Outcome ε α} {a : α} :
    mapErr f x = ok a ↔ x = ok a := by
  cases x <;> simp [mapErr]

/-- A loop panics exactly when some element panics in the state the elements
before it led to. -/
theorem foldlM_panics {f : σ → α → Outcome ε σ} {items : List α} {s : σ} :
    (items.foldlM f s).Panics ↔
      ∃ before a after t, items = before ++ a :: after ∧ before.foldlM f s = ok t ∧
        (f t a).Panics := by
  induction items generalizing s with
  | nil => simp
  | cons a rest ih =>
      rw [List.foldlM_cons, bind_panics]
      constructor
      · rintro (here | ⟨t, stepped, later⟩)
        · exact ⟨[], a, rest, s, rfl, rfl, here⟩
        · obtain ⟨before, b, after, u, rfl, went, there⟩ := ih.mp later
          refine ⟨a :: before, b, after, u, rfl, ?_, there⟩
          rw [List.foldlM_cons, stepped, ok_bind, went]
      · rintro ⟨before, b, after, u, same, went, there⟩
        cases before with
        | nil =>
            cases went
            simp only [List.nil_append, List.cons.injEq] at same
            exact Or.inl (same.1 ▸ there)
        | cons c before =>
            simp only [List.cons_append, List.cons.injEq] at same
            obtain ⟨rfl, rfl⟩ := same
            rw [List.foldlM_cons, bind_eq_ok] at went
            obtain ⟨t, stepped, tail⟩ := went
            exact Or.inr ⟨t, stepped, ih.mpr ⟨before, b, after, u, rfl, tail, there⟩⟩

/-- A traversal panics exactly when some element panics and every element before
it returned. -/
theorem mapM_panics {f : α → Outcome ε β} {items : List α} :
    (items.mapM f).Panics ↔
      ∃ before a after, items = before ++ a :: after ∧ (∀ b ∈ before, (f b).Returns) ∧
        (f a).Panics := by
  induction items with
  | nil => simp
  | cons a rest ih =>
      rw [List.mapM_cons, bind_panics]
      constructor
      · rintro (here | ⟨b, returned, later⟩)
        · exact ⟨[], a, rest, rfl, by simp, here⟩
        · have tail : (rest.mapM f).Panics := by
            rcases bind_panics.mp later with tail | ⟨_, _, impossible⟩
            · exact tail
            · simp at impossible
          obtain ⟨before, c, after, rfl, clean, there⟩ := ih.mp tail
          refine ⟨a :: before, c, after, rfl, ?_, there⟩
          intro d member
          rcases List.mem_cons.mp member with rfl | member
          · exact ⟨b, returned⟩
          · exact clean d member
      · rintro ⟨before, c, after, same, clean, there⟩
        cases before with
        | nil =>
            simp only [List.nil_append, List.cons.injEq] at same
            exact Or.inl (same.1 ▸ there)
        | cons d before =>
            simp only [List.cons_append, List.cons.injEq] at same
            obtain ⟨rfl, rfl⟩ := same
            obtain ⟨b, returned⟩ := clean a (by simp)
            refine Or.inr ⟨b, returned, bind_panics.mpr (Or.inl ?_)⟩
            exact ih.mpr ⟨before, c, after, rfl, fun e member => clean e (by simp [member]), there⟩

theorem mapM_of_ok {f : α → Outcome ε β} {g : α → β} {items : List α}
    (each : ∀ a ∈ items, f a = ok (g a)) : items.mapM f = ok (items.map g) := by
  induction items with
  | nil => rfl
  | cons a rest ih =>
      obtain ⟨here, later⟩ := List.forall_mem_cons.mp each
      rw [List.mapM_cons, here, ok_bind, ih later, ok_bind, pure_eq, List.map_cons]

/-- What a traversal returned came from its elements. -/
theorem mem_of_mapM_ok {f : α → Outcome ε β} {items : List α} {results : List β}
    (returned : items.mapM f = ok results) {b : β} (member : b ∈ results) :
    ∃ a ∈ items, f a = ok b := by
  induction items generalizing results with
  | nil =>
      cases returned
      simp at member
  | cons a rest ih =>
      rw [List.mapM_cons, bind_eq_ok] at returned
      obtain ⟨first, here, returned⟩ := returned
      obtain ⟨more, later, same⟩ := bind_eq_ok.mp returned
      cases same
      rcases List.mem_cons.mp member with rfl | member
      · exact ⟨a, by simp, here⟩
      · obtain ⟨c, inside, got⟩ := ih later member
        exact ⟨c, by simp [inside], got⟩

/-! ## What a computation yields -/

/-- The computation returns, and what it returns satisfies `Q`. -/
def Yields (x : Outcome ε α) (Q : α → Prop) : Prop := ∃ a, x = ok a ∧ Q a

instance (x : Outcome ε α) (Q : α → Prop) [DecidablePred Q] : Decidable (x.Yields Q) :=
  match x with
  | ok a => decidable_of_iff (Q a) ⟨fun holds => ⟨a, rfl, holds⟩, by rintro ⟨_, ⟨rfl⟩, holds⟩; exact holds⟩
  | err _ => isFalse (by rintro ⟨_, impossible, _⟩; cases impossible)
  | panic => isFalse (by rintro ⟨_, impossible, _⟩; cases impossible)

theorem yields_ok {a : α} {Q : α → Prop} (holds : Q a) : (ok a : Outcome ε α).Yields Q :=
  ⟨a, rfl, holds⟩

theorem Yields.returns {x : Outcome ε α} {Q : α → Prop} (yields : x.Yields Q) : x.Returns := by
  obtain ⟨a, returned, -⟩ := yields
  exact ⟨a, returned⟩

theorem Yields.bind {x : Outcome ε α} {f : α → Outcome ε β} {P : α → Prop} {Q : β → Prop}
    (first : x.Yields P) (next : ∀ a, P a → (f a).Yields Q) : (x >>= f).Yields Q := by
  obtain ⟨a, rfl, holds⟩ := first
  exact next a holds

/-- A bind whose second half panics on everything the first yields panics. -/
theorem Yields.bind_panics {x : Outcome ε α} {f : α → Outcome ε β} {P : α → Prop}
    (first : x.Yields P) (next : ∀ a, P a → (f a).Panics) : (x >>= f).Panics := by
  obtain ⟨a, rfl, holds⟩ := first
  exact next a holds

/-- **The loop rule.**  A loop whose every step yields an invariant from that
invariant yields it. -/
theorem foldlM_yields {f : σ → α → Outcome ε σ} {P : σ → Prop} {items : List α}
    (kept : ∀ s a, a ∈ items → P s → (f s a).Yields P) {s : σ} (holds : P s) :
    (items.foldlM f s).Yields P := by
  induction items generalizing s with
  | nil => exact yields_ok holds
  | cons a rest ih =>
      rw [List.foldlM_cons]
      refine (kept s a (by simp) holds).bind fun t holds => ?_
      exact ih (fun s b member => kept s b (by simp [member])) holds

/-- The loop rule read backwards: what the result says of itself, it says of where
the loop started and of every element. -/
theorem foldlM_backward {f : σ → α → Outcome ε σ} {P : σ → Prop} {Q : α → Prop}
    (step : ∀ s a t, f s a = ok t → P t → P s ∧ Q a) {items : List α} {s t : σ}
    (returned : items.foldlM f s = ok t) (holds : P t) : P s ∧ ∀ a ∈ items, Q a := by
  induction items generalizing s with
  | nil =>
      cases returned
      exact ⟨holds, by simp⟩
  | cons a rest ih =>
      rw [List.foldlM_cons] at returned
      obtain ⟨next, first, returned⟩ := bind_eq_ok.mp returned
      obtain ⟨after, each⟩ := ih returned
      obtain ⟨before, here⟩ := step s a next first after
      exact ⟨before, by simpa using ⟨here, each⟩⟩

/-- A loop whose steps return or not by their element alone. -/
theorem foldlM_returns {f : σ → α → Outcome ε σ} {Q : α → Prop}
    (step : ∀ s a, (f s a).Returns ↔ Q a) {items : List α} {s : σ} :
    (items.foldlM f s).Returns ↔ ∀ a ∈ items, Q a := by
  induction items generalizing s with
  | nil => simp
  | cons a rest ih =>
      rw [List.foldlM_cons, List.forall_mem_cons, ← step s a]
      constructor
      · rintro ⟨t, returned⟩
        obtain ⟨next, first, rest⟩ := bind_eq_ok.mp returned
        exact ⟨⟨next, first⟩, ih.mp ⟨t, rest⟩⟩
      · rintro ⟨⟨next, first⟩, each⟩
        rw [first, ok_bind]
        exact ih.mpr each

/-- The rule of a loop over an index: what one turn carries from `i` to `i + 1`, the
loop carries from the start to the end. -/
theorem foldlM_range {f : σ → Nat → Outcome ε σ} {P : Nat → σ → Prop}
    (turn : ∀ i s t, P i s → f s i = ok t → P (i + 1) t) {n : Nat} {s t : σ} (start : P 0 s)
    (returned : (List.range n).foldlM f s = ok t) : P n t := by
  induction n generalizing t with
  | zero =>
      cases returned
      exact start
  | succ n ih =>
      rw [List.range_succ, List.foldlM_append] at returned
      obtain ⟨next, before, last⟩ := bind_eq_ok.mp returned
      rw [List.foldlM_cons] at last
      obtain ⟨final, last, same⟩ := bind_eq_ok.mp last
      cases same
      exact turn n next t (ih before) last

/-! ## The partial operations inside their domain -/

theorem index_of_lt {items : List α} {i : Nat} (inside : i < items.length) :
    (index items i : Outcome ε α) = ok items[i] := by
  simp [index, List.getElem?_eq_getElem inside]

theorem index_eq_ok {items : List α} {i : Nat} {a : α} :
    (index items i : Outcome ε α) = ok a ↔ items[i]? = some a := by
  unfold index
  cases items[i]? <;> simp

theorem update_eq_ok {items out : List α} {i : Nat} {f : α → α} :
    (update items i f : Outcome ε (List α)) = ok out ↔ i < items.length ∧ items.modify i f = out := by
  unfold update
  by_cases inside : i < items.length
  · simp [inside]
  · simp [inside]

theorem updateIf_eq_ok {writes : Bool} {items out : List α} {i : Nat} {f : α → α}
    (returned : (updateIf writes items i f : Outcome ε (List α)) = ok out) :
    items.modify i (fun a => if writes then f a else a) = out := by
  cases writes with
  | true => exact (update_eq_ok.mp returned).2
  | false =>
      have same : items = out := ok.inj returned
      rw [← same]
      exact List.modify_id i items

theorem index_yields {items : List α} {i : Nat} (inside : i < items.length) :
    (index items i : Outcome ε α).Yields fun a => items[i]? = some a :=
  ⟨items[i], index_of_lt inside, List.getElem?_eq_getElem inside⟩

theorem update_of_lt {items : List α} {i : Nat} (f : α → α) (inside : i < items.length) :
    (update items i f : Outcome ε (List α)) = ok (items.modify i f) := by
  simp [update, inside]

/-- Writing inside a vector keeps its length. -/
theorem update_yields {items : List α} {i n : Nat} (f : α → α) (inside : i < n)
    (sized : items.length = n) :
    (update items i f : Outcome ε (List α)).Yields fun out => out.length = n :=
  ⟨_, update_of_lt f (sized ▸ inside), by simpa using sized⟩

theorem updateIf_yields {writes : Bool} {items : List α} {i n : Nat} (f : α → α) (inside : i < n)
    (sized : items.length = n) :
    (updateIf writes items i f : Outcome ε (List α)).Yields fun out => out.length = n := by
  cases writes with
  | true => exact update_yields f inside sized
  | false => exact yields_ok sized

end Outcome

end MajsoulManager.Theory
