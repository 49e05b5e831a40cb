import Mathlib.Data.Rat.Defs
import OpenctiLookup.Python.Text

/-! What an expression evaluates to: a value, or a reason there is none. The
values are those `json.loads` gives, with the operations the program applies
to them before it knows their shape. -/
namespace OpenctiLookup.Python

/-- The exceptions the modelled code can meet. -/
inductive PyErr where
  | attributeError
  | typeError
  | keyError
  | valueError
  /-- A `ValueError` as well; met only where none is caught. -/
  | unicodeEncodeError
  | overflowError
  | recursionError
  | fileExistsError
  | fileNotFoundError
  /-- An exception class of the program, with its message. -/
  | custom (cls message : Str)
deriving DecidableEq

/-- Why a computation has no value: it raised, or it runs forever. -/
inductive Fault where
  | raised (error : PyErr)
  | diverges
deriving DecidableEq

abbrev Py := Except Fault

section Bind

variable {α β : Type}

theorem ok_bind (a : α) (f : α → Py β) : (Except.ok a >>= f : Py β) = f a := rfl

theorem error_bind (fault : Fault) (f : α → Py β) :
    ((Except.error fault : Py α) >>= f) = .error fault := rfl

theorem bind_eq_ok_iff {x : Py α} {f : α → Py β} {b : β} :
    (x >>= f) = .ok b ↔ ∃ a, x = .ok a ∧ f a = .ok b := by
  cases x with
  | error fault => simp [error_bind]
  | ok a => simp [ok_bind]

/-- A computation returns, with a value that has the property. -/
def Returns (x : Py α) (post : α → Prop) : Prop := ∃ a, x = .ok a ∧ post a

theorem Returns.ok {post : α → Prop} {a : α} (h : post a) : Returns (.ok a) post := ⟨a, rfl, h⟩

theorem Returns.mono {x : Py α} {post weaker : α → Prop} (h : Returns x post)
    (hweaker : ∀ a, post a → weaker a) : Returns x weaker := by
  obtain ⟨a, hx, hpost⟩ := h
  exact ⟨a, hx, hweaker a hpost⟩

theorem Returns.bind {x : Py α} {f : α → Py β} {mid : α → Prop} {post : β → Prop}
    (hx : Returns x mid) (hf : ∀ a, mid a → Returns (f a) post) : Returns (x >>= f) post := by
  obtain ⟨a, rfl, hmid⟩ := hx
  exact hf a hmid

theorem returns_map_iff {x : Py α} {f : α → β} {post : β → Prop} :
    Returns (x.map f) post ↔ Returns x fun a => post (f a) := by
  cases x with
  | error fault => exact iff_of_false nofun nofun
  | ok a =>
      constructor
      · rintro ⟨b, h, hpost⟩
        cases h
        exact .ok hpost
      · rintro ⟨b, h, hpost⟩
        cases h
        exact .ok hpost

theorem returns_bind_iff {x : Py α} {f : α → Py β} {post : β → Prop} :
    Returns (x >>= f) post ↔ Returns x fun a => Returns (f a) post := by
  constructor
  · rintro ⟨b, h, hpost⟩
    obtain ⟨a, hx, hf⟩ := bind_eq_ok_iff.mp h
    exact ⟨a, hx, b, hf, hpost⟩
  · exact fun h => h.bind fun _ hf => hf

theorem returns_ok_iff {a : α} {post : α → Prop} : Returns (.ok a) post ↔ post a :=
  ⟨fun ⟨_, h, hpost⟩ => Except.ok.inj h ▸ hpost, .ok⟩

theorem returns_pure_iff {a : α} {post : α → Prop} : Returns (pure a) post ↔ post a :=
  returns_ok_iff

theorem not_returns_error {fault : Fault} {post : α → Prop} : ¬ Returns (.error fault) post := by
  rintro ⟨_, h, -⟩
  cases h

abbrev Succeeds (x : Py α) : Prop := Returns x fun _ => True

theorem succeeds_bind_iff {x : Py α} {f : α → Py β} :
    Succeeds (x >>= f) ↔ Returns x fun a => Succeeds (f a) := returns_bind_iff

theorem returns_iff {x : Py α} {post : α → Prop} :
    Returns x post ↔ Succeeds x ∧ ∀ a, x = .ok a → post a := by
  constructor
  · rintro ⟨a, rfl, hpost⟩
    exact ⟨.ok trivial, fun b hb => Except.ok.inj hb ▸ hpost⟩
  · rintro ⟨⟨a, hx, -⟩, hpost⟩
    exact ⟨a, hx, hpost a hx⟩

theorem returns_congr {x : Py α} {post post' : α → Prop} (h : ∀ a, post a ↔ post' a) :
    Returns x post ↔ Returns x post' := by
  rw [funext fun a => propext (h a)]

theorem returns_const_iff (x : Py α) {post : Prop} :
    Returns x (fun _ => post) ↔ Succeeds x ∧ post := by
  rw [returns_iff]
  refine and_congr_right fun ⟨a, hx, _⟩ => ?_
  exact ⟨fun h => h a hx, fun h _ _ => h⟩

def Plain (x : Py α) : Prop := ∀ cls message, x ≠ .error (.raised (.custom cls message))

theorem Plain.ok (a : α) : Plain (.ok a) := nofun

theorem Plain.bind {x : Py α} {f : α → Py β} (hx : Plain x) (hf : ∀ a, Plain (f a)) :
    Plain (x >>= f) := by
  cases x with
  | error fault => exact fun cls message h => hx cls message (congrArg _ (Except.error.inj h))
  | ok a => exact hf a

end Bind

section Comprehension

variable {α β : Type}

/-- `[x for x in xs if p(x)]`. -/
def filterPy (p : α → Py Bool) : List α → Py (List α)
  | [] => .ok []
  | x :: xs => do
      let keep ← p x
      let rest ← filterPy p xs
      pure (if keep then x :: rest else rest)

/-- `[f(x) for x in xs]`. -/
def mapPy (f : α → Py β) : List α → Py (List β)
  | [] => .ok []
  | x :: xs => do
      let y ← f x
      let rest ← mapPy f xs
      pure (y :: rest)

theorem filterPy_ok {p : α → Py Bool} {q : α → Bool} {xs : List α}
    (h : ∀ x ∈ xs, p x = .ok (q x)) : filterPy p xs = .ok (xs.filter q) := by
  induction xs with
  | nil => rfl
  | cons x xs ih =>
      rw [filterPy, h x List.mem_cons_self, ih fun y hy => h y (List.mem_cons_of_mem _ hy),
        List.filter_cons]
      rfl

theorem mapPy_ok {f : α → Py β} {g : α → β} {xs : List α} (h : ∀ x ∈ xs, f x = .ok (g x)) :
    mapPy f xs = .ok (xs.map g) := by
  induction xs with
  | nil => rfl
  | cons x xs ih =>
      rw [mapPy, h x List.mem_cons_self, ih fun y hy => h y (List.mem_cons_of_mem _ hy)]
      rfl

theorem mapPy_map {γ : Type} (f : α → Py β) (g : γ → α) (xs : List γ) :
    mapPy f (xs.map g) = mapPy (fun x => f (g x)) xs := by
  induction xs with
  | nil => rfl
  | cons x xs ih => rw [List.map_cons, mapPy, mapPy, ih]

theorem filterPy_map {γ : Type} (p : α → Py Bool) (g : γ → α) (xs : List γ) :
    filterPy p (xs.map g) = (filterPy (fun x => p (g x)) xs).map (List.map g) := by
  induction xs with
  | nil => rfl
  | cons x xs ih =>
      rw [List.map_cons, filterPy, filterPy, ih]
      cases p (g x) with
      | error fault => rfl
      | ok keep =>
          cases filterPy (fun x => p (g x)) xs with
          | error fault => rfl
          | ok rest => cases keep <;> rfl

theorem filterPy_returns {p : α → Py Bool} {xs : List α}
    (h : ∀ x ∈ xs, Returns (p x) fun _ => True) :
      Returns (filterPy p xs) fun kept => kept ⊆ xs := by
  induction xs with
  | nil => exact .ok (List.Subset.refl _)
  | cons x xs ih =>
      rw [filterPy]
      refine (h x List.mem_cons_self).bind fun keep _ => ?_
      refine (ih fun y hy => h y (List.mem_cons_of_mem _ hy)).bind fun rest hrest => .ok ?_
      cases keep with
      | false => exact fun y hy => List.mem_cons_of_mem _ (hrest hy)
      | true => exact List.cons_subset_cons x hrest

theorem mapPy_returns {f : α → Py β} {post : α → β → Prop} {xs : List α}
    (h : ∀ x ∈ xs, Returns (f x) (post x)) : Returns (mapPy f xs) (List.Forall₂ post xs) := by
  induction xs with
  | nil => exact .ok .nil
  | cons x xs ih =>
      rw [mapPy]
      refine (h x List.mem_cons_self).bind fun y hy => ?_
      refine (ih fun y hy => h y (List.mem_cons_of_mem _ hy)).bind fun ys hys => ?_
      exact .ok (.cons hy hys)

theorem returns_filterPy_iff {p : α → Py Bool} {xs : List α} {post : List α → Prop} :
    Returns (filterPy p xs) post ↔
      (∀ x ∈ xs, Succeeds (p x)) ∧ post (xs.filter fun x => (p x).toOption.getD false) := by
  induction xs generalizing post with
  | nil => simp [filterPy, returns_ok_iff]
  | cons x xs ih =>
      unfold filterPy
      rw [returns_bind_iff, List.forall_mem_cons, List.filter_cons]
      cases hx : p x with
      | error fault => exact iff_of_false not_returns_error fun h => not_returns_error h.1.1
      | ok keep =>
          simp only [returns_ok_iff, returns_bind_iff, returns_pure_iff, ih, true_and]
          cases keep <;> rfl

theorem filterPy_congr {p q : α → Py Bool} {xs : List α} (h : ∀ x ∈ xs, p x = q x) :
    filterPy p xs = filterPy q xs := by
  induction xs with
  | nil => rfl
  | cons x xs ih =>
      rw [filterPy, filterPy, h x List.mem_cons_self,
        ih fun y hy => h y (List.mem_cons_of_mem _ hy)]

theorem mapPy_congr {f g : α → Py β} {xs : List α} (h : ∀ x ∈ xs, f x = g x) :
    mapPy f xs = mapPy g xs := by
  induction xs with
  | nil => rfl
  | cons x xs ih =>
      rw [mapPy, mapPy, h x List.mem_cons_self, ih fun y hy => h y (List.mem_cons_of_mem _ hy)]

theorem mem_of_filterPy {p : α → Py Bool} {xs kept : List α} {x : α}
    (h : filterPy p xs = .ok kept) (hmem : x ∈ kept) : x ∈ xs ∧ p x = .ok true := by
  have hreturns : Returns (filterPy p xs) fun found => found = kept := ⟨kept, h, rfl⟩
  rw [← (returns_filterPy_iff.mp hreturns).2, List.mem_filter] at hmem
  obtain ⟨hmem, hkept⟩ := hmem
  refine ⟨hmem, ?_⟩
  cases hp : p x with
  | error fault => simp [hp, Except.toOption] at hkept
  | ok keep => simpa [hp, Except.toOption] using hkept

theorem succeeds_mapPy_iff {f : α → Py β} {xs : List α} :
    Succeeds (mapPy f xs) ↔ ∀ x ∈ xs, Succeeds (f x) := by
  induction xs with
  | nil => simp [mapPy, returns_ok_iff]
  | cons x xs ih =>
      unfold mapPy
      rw [succeeds_bind_iff, List.forall_mem_cons, ← ih]
      cases f x with
      | error fault => exact iff_of_false not_returns_error fun h => not_returns_error h.1
      | ok y => simp only [returns_ok_iff, succeeds_bind_iff, returns_pure_iff, true_and]

theorem plain_filterPy {p : α → Py Bool} (h : ∀ x, Plain (p x)) (xs : List α) :
    Plain (filterPy p xs) := by
  induction xs with
  | nil => exact .ok _
  | cons x xs ih => exact (h x).bind fun _ => ih.bind fun _ => .ok _

theorem plain_mapPy {f : α → Py β} (h : ∀ x, Plain (f x)) (xs : List α) : Plain (mapPy f xs) := by
  induction xs with
  | nil => exact .ok _
  | cons x xs ih => exact (h x).bind fun _ => ih.bind fun _ => .ok _

end Comprehension

/-- A decoded JSON value. An object keeps its keys in insertion order. -/
inductive Json where
  | null
  | bool (b : Bool)
  | int (n : ℤ)
  | float (q : ℚ)
  | str (s : Str)
  | arr (items : List Json)
  | obj (fields : List (Str × Json))

namespace Json

def truthy : Json → Bool
  | null => false
  | bool b => b
  | int n => decide (n ≠ 0)
  | float q => decide (q ≠ 0)
  | str s => !s.isEmpty
  | arr items => !items.isEmpty
  | obj fields => !fields.isEmpty

/-- `x or default`. -/
def orElse (x default : Json) : Json := if x.truthy then x else default

/-- The value of a key, `null` for an absent one. -/
def field (fields : List (Str × Json)) (key : Str) : Json := (fields.lookup key).getD null

/-- `x.get(key)`: only a `dict` has the method. -/
def get (x : Json) (key : Str) : Py Json :=
  match x with
  | obj fields => .ok (field fields key)
  | _ => .error (.raised .attributeError)

/-- `x.get(key, default)`. -/
def getD (x : Json) (key : Str) (default : Json) : Py Json :=
  match x with
  | obj fields => .ok ((fields.lookup key).getD default)
  | _ => .error (.raised .attributeError)

/-- `x[key]`. -/
def item (x : Json) (key : Str) : Py Json :=
  match x with
  | obj fields =>
      match fields.lookup key with
      | some value => .ok value
      | none => .error (.raised .keyError)
  | _ => .error (.raised .typeError)

/-- What `for _ in x` walks: items, characters or keys. -/
def iter : Json → Py (List Json)
  | arr items => .ok items
  | str s => .ok (s.map fun c => str [c])
  | obj fields => .ok (fields.map fun entry => str entry.1)
  | _ => .error (.raised .typeError)

def values : Json → Py (List Json)
  | obj fields => .ok (fields.map Prod.snd)
  | _ => .error (.raised .attributeError)

/-- `x[0]` of something truthy. -/
def head : Json → Py Json
  | arr (x :: _) => .ok x
  | str (c :: _) => .ok (str [c])
  | obj _ => .error (.raised .keyError)
  | _ => .error (.raised .typeError)

def ofOption {α : Type} (f : α → Json) (x : Option α) : Json := x.elim null f

def ofTexts (key : Str) (texts : List Str) : Json :=
  arr (texts.map fun text => obj [(key, str text)])

@[simp] theorem get_obj (fields : List (Str × Json)) (key : Str) :
    (obj fields).get key = .ok (field fields key) := rfl

@[simp] theorem iter_arr (items : List Json) : (arr items).iter = .ok items := rfl

@[simp] theorem values_obj (fields : List (Str × Json)) :
    (obj fields).values = .ok (fields.map Prod.snd) := rfl

@[simp] theorem field_cons_self (key : Str) (value : Json) (fields : List (Str × Json)) :
    field ((key, value) :: fields) key = value := by
  simp [field]

theorem iter_orElse_arr (items : List Json) : ((arr items).orElse (arr [])).iter = .ok items := by
  cases items <;> simp [orElse, truthy]

section Access

variable {α : Type} {x : Json} {post : Json → Prop}

/-- A `dict`. -/
def IsObj : Json → Prop
  | obj _ => True
  | _ => False

def Iterable : Json → Prop
  | .arr _ => True
  | .str _ => True
  | .obj _ => True
  | _ => False

theorem iterable_iff : x.Iterable ↔ ∃ items, x.iter = .ok items := by
  cases x <;> simp [Iterable, iter]

def member (x : Json) (key : Str) : Json :=
  match x with
  | obj fields => field fields key
  | _ => null

def memberD (x : Json) (key : Str) (default : Json) : Json :=
  match x with
  | obj fields => (fields.lookup key).getD default
  | _ => default

/-- What can be walked in `x`, if anything. -/
def elements (x : Json) : List Json := x.iter.toOption.getD []

/-- `x or {}` is a `dict`. -/
def Mapping (x : Json) : Prop := x.truthy = true → x.IsObj

/-- `x or []` can be walked. -/
def Walkable (x : Json) : Prop := x.truthy = true → x.Iterable

theorem plain_get (x : Json) (key : Str) : Plain (x.get key) := by
  cases x <;> exact nofun

theorem plain_getD (x : Json) (key : Str) (default : Json) : Plain (x.getD key default) := by
  cases x <;> exact nofun

theorem plain_item (x : Json) (key : Str) : Plain (x.item key) := by
  cases x with
  | obj fields =>
      unfold item
      dsimp only
      split <;> exact nofun
  | _ => exact nofun

theorem plain_iter (x : Json) : Plain x.iter := by
  cases x <;> exact nofun

theorem plain_head (x : Json) : Plain x.head := by
  cases x with
  | arr items => cases items <;> exact nofun
  | str s => cases s <;> exact nofun
  | _ => exact nofun

theorem isObj_iff : x.IsObj ↔ ∃ fields, x = obj fields := by
  cases x <;> simp [IsObj]

theorem returns_get_iff (key : Str) : Returns (x.get key) post ↔ x.IsObj ∧ post (x.member key) := by
  cases x with
  | obj fields => simp [get, IsObj, member, returns_ok_iff]
  | _ => exact iff_of_false not_returns_error fun h => h.1

theorem returns_getD_iff (key : Str) (default : Json) :
    Returns (x.getD key default) post ↔ x.IsObj ∧ post (x.memberD key default) := by
  cases x with
  | obj fields => simp [getD, IsObj, memberD, returns_ok_iff]
  | _ => exact iff_of_false not_returns_error fun h => h.1

theorem returns_iter_iff {post : List Json → Prop} :
    Returns x.iter post ↔ x.Iterable ∧ post x.elements := by
  cases x <;> simp [iter, Iterable, elements, returns_ok_iff, not_returns_error, Except.toOption]

theorem memberD_of_falsy (hfalsy : ¬ x.truthy = true) (key : Str) (default : Json) :
    x.memberD key default = default := by
  cases x with
  | obj fields =>
      cases fields with
      | nil => rfl
      | cons _ _ => exact absurd rfl hfalsy
  | _ => rfl

theorem member_eq_memberD (x : Json) (key : Str) : x.member key = x.memberD key null := by
  cases x <;> rfl

theorem elements_of_falsy (hfalsy : ¬ x.truthy = true) : x.elements = [] := by
  cases x with
  | str s =>
      cases s with
      | nil => rfl
      | cons _ _ => exact absurd rfl hfalsy
  | arr items =>
      cases items with
      | nil => rfl
      | cons _ _ => exact absurd rfl hfalsy
  | obj fields =>
      cases fields with
      | nil => rfl
      | cons _ _ => exact absurd rfl hfalsy
  | _ => rfl

theorem returns_orElse_getD_iff (key : Str) (default : Json) :
    Returns ((x.orElse (obj [])).getD key default) post ↔
      x.Mapping ∧ post (x.memberD key default) := by
  rw [returns_getD_iff]
  by_cases htruthy : x.truthy = true
  · simp [orElse, Mapping, htruthy]
  · rw [memberD_of_falsy htruthy, orElse, if_neg htruthy]
    simp [Mapping, htruthy, IsObj, memberD]

theorem returns_orElse_get_iff (key : Str) :
    Returns ((x.orElse (obj [])).get key) post ↔ x.Mapping ∧ post (x.member key) := by
  rw [returns_get_iff]
  by_cases htruthy : x.truthy = true
  · simp [orElse, Mapping, htruthy]
  · rw [member_eq_memberD, member_eq_memberD, memberD_of_falsy htruthy, orElse, if_neg htruthy]
    simp [Mapping, htruthy, IsObj, memberD]

theorem returns_orElse_iter_iff {post : List Json → Prop} :
    Returns (x.orElse (arr [])).iter post ↔ x.Walkable ∧ post x.elements := by
  rw [returns_iter_iff]
  by_cases htruthy : x.truthy = true
  · simp [orElse, Walkable, htruthy]
  · rw [elements_of_falsy htruthy, orElse, if_neg htruthy]
    simp [Walkable, htruthy, Iterable, elements, iter, Except.toOption]

end Access

end Json

end OpenctiLookup.Python
