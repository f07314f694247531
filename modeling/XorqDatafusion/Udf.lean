import XorqDatafusion.Adapters
import XorqDatafusion.Fallible
import Mathlib.Algebra.Ring.Int.Defs

/-! Scalar functions over arrays: their arguments arrive as columns, as scalars, or as a mix of both. -/
namespace XorqDatafusion.Udf

open Adapters Blame Errors Fallible

variable {T α E : Type}

/-- The element at an index. -/
def elementAt? (array : ArrayRef T α) (i : ℕ) : Option (ScalarValue T α) :=
  array.values[i]?.map (⟨array.dataType, ·⟩)

/-- An array that repeats a scalar. -/
def constant (n : ℕ) (s : ScalarValue T α) : ArrayRef T α := ⟨s.dataType, List.replicate n s.value⟩

structure Arrow.Documented (arrow : Arrow T α (Except E)) : Prop where
  toArrayOfSize : ∀ s n, arrow.toArrayOfSize s n = .ok (constant n s)
  tryFromArray : ∀ array i s, elementAt? array i = some s → arrow.tryFromArray array i = .ok s

variable (arrow : Arrow T α (Except E)) (inner : List (ArrayRef T α) → Except E (ArrayRef T α))

/-- The arguments' rows `i`. -/
def Row (args : List (ArrayRef T α)) (i : ℕ) (row : List (ScalarValue T α)) : Prop :=
  List.Forall₂ (fun a s => elementAt? a i = some s) args row

/-- `inner` works row by row, as `g`: over arrays of one length its result has that length and its row
`i` is what `g` makes of the arguments' rows `i`; it fails on rows only where `g` fails on one of them. -/
structure RowWise (inner : List (ArrayRef T α) → Except E (ArrayRef T α))
    (g : List (ScalarValue T α) → Except E (ScalarValue T α)) : Prop where
  ok : ∀ args n out, args ≠ [] → (∀ a ∈ args, a.values.length = n) → inner args = .ok out →
    out.values.length = n ∧
      ∀ i row, Row args i row → ∃ s, g row = .ok s ∧ elementAt? out i = some s
  error : ∀ args n e, args ≠ [] → (∀ a ∈ args, a.values.length = n) → inner args = .error e →
    0 < n → ∃ i row, Row args i row ∧ ∃ e', g row = .error e'

/-- The scalar itself, or the array's element at an index. -/
def ColumnarValue.at? (i : ℕ) : ColumnarValue T α → Option (ScalarValue T α)
  | .array a => elementAt? a i
  | .scalar s => some s

/-- What `into_array` makes of an argument. -/
def ColumnarValue.expand (n : ℕ) : ColumnarValue T α → ArrayRef T α
  | .array a => a
  | .scalar s => constant n s

section Lengths

variable {arrow inner} {args : List (ColumnarValue T α)} {n : ℕ} {acc : Option ℕ}

theorem foldl_lengthOf_of_arrays (h : ∀ a, .array a ∈ args → a.values.length = n)
    (hacc : acc = some n ∨ ∃ a, .array a ∈ args) : args.foldl lengthOf acc = some n := by
  induction args generalizing acc with
  | nil =>
    rcases hacc with rfl | ⟨a, ha⟩
    · rfl
    · cases ha
  | cons arg args ih =>
    have hrest : ∀ a, .array a ∈ args → a.values.length = n :=
      fun a ha => h a (List.mem_cons_of_mem _ ha)
    cases arg with
    | array a => exact ih hrest (.inl (congrArg some (h a List.mem_cons_self)))
    | scalar s =>
      apply ih hrest
      rcases hacc with hacc | ⟨a, ha⟩
      · exact .inl hacc
      · rcases List.mem_cons.mp ha with heq | ha
        · cases heq
        · exact .inr ⟨a, ha⟩

theorem foldl_lengthOf_of_scalars (ss : List (ScalarValue T α)) :
    (ss.map .scalar).foldl lengthOf acc = acc := by
  induction ss with
  | nil => rfl
  | cons s ss ih => exact ih

theorem mapM_intoArray (h : arrow.Documented) (args : List (ColumnarValue T α)) (n : ℕ) :
    args.mapM (intoArray arrow n) = .ok (args.map (ColumnarValue.expand n)) := by
  have hinto : intoArray arrow n = fun arg => pure (arg.expand n) := by
    funext arg
    cases arg with
    | array a => rfl
    | scalar s => exact h.toArrayOfSize s n
  rw [hinto]
  exact List.mapM_pure

theorem expand_length (h : ∀ a, .array a ∈ args → a.values.length = n) :
    ∀ a ∈ args.map (ColumnarValue.expand n), a.values.length = n := by
  intro a ha
  obtain ⟨arg, harg, rfl⟩ := List.mem_map.mp ha
  cases arg with
  | array a => exact h a harg
  | scalar s => simp [ColumnarValue.expand, constant]

/-- With an array among its arguments, the function is `inner` over arrays of that length. -/
theorem makeScalarFunction_of_array (harrow : arrow.Documented) (ha : ∃ a, .array a ∈ args)
    (h : ∀ a, .array a ∈ args → a.values.length = n) :
    makeScalarFunction arrow inner args =
      (inner (args.map (ColumnarValue.expand n))).map .array := by
  simp only [makeScalarFunction, foldl_lengthOf_of_arrays h (.inr ha), Option.getD_some,
    mapM_intoArray harrow]
  rfl

/-- With scalars alone, it is the first row of `inner` over arrays of length one. -/
theorem makeScalarFunction_of_scalars (harrow : arrow.Documented) (ss : List (ScalarValue T α)) :
    makeScalarFunction arrow inner (ss.map .scalar) =
      (inner (ss.map (constant 1)) >>= fun array => arrow.tryFromArray array 0).map .scalar := by
  have hexpand : (ss.map .scalar).map (ColumnarValue.expand 1) = ss.map (constant 1) := by
    rw [List.map_map]
    rfl
  simp only [makeScalarFunction, foldl_lengthOf_of_scalars, Option.getD_none,
    mapM_intoArray harrow, hexpand, bind, Except.bind]
  cases inner (ss.map (constant 1)) with
  | error e => rfl
  | ok array => cases arrow.tryFromArray array 0 <;> rfl

end Lengths

section Rows

variable {arrow inner} {g : List (ScalarValue T α) → Except E (ScalarValue T α)}
  {args : List (ColumnarValue T α)} {ss row : List (ScalarValue T α)} {n i : ℕ} {out : ArrayRef T α}
  {s s' : ScalarValue T α}

theorem elementAt?_lt (h : elementAt? out i = some s) : i < out.values.length := by
  obtain ⟨v, hv, -⟩ := Option.map_eq_some_iff.mp h
  exact (List.getElem?_eq_some_iff.mp hv).1

@[simp]
theorem elementAt?_constant : elementAt? (constant n s) i = if i < n then some s else none := by
  unfold elementAt? constant
  by_cases h : i < n <;> simp [h]

theorem row_constant (h : Row (ss.map (constant n)) i row) : row = ss := by
  rw [Row, List.forall₂_map_left_iff] at h
  induction h with
  | nil => rfl
  | cons hs _ ih =>
    rw [elementAt?_constant] at hs
    split at hs
    · cases hs
      rw [ih]
    · cases hs

theorem row_constant_of_lt (h : i < n) (ss : List (ScalarValue T α)) :
    Row (ss.map (constant n)) i ss := by
  rw [Row, List.forall₂_map_left_iff, List.forall₂_same]
  intro s _
  simp [h]

theorem row_expand (hi : i < n) (h : List.Forall₂ (fun arg s => arg.at? i = some s) args row) :
    Row (args.map (ColumnarValue.expand n)) i row := by
  rw [Row, List.forall₂_map_left_iff]
  apply h.imp
  intro arg s hs
  cases arg with
  | array a => exact hs
  | scalar s' =>
    cases hs
    simp [ColumnarValue.expand, hi]

theorem eq_constant (hn : 0 < n) (hlen : out.values.length = n)
    (h : ∀ i < n, elementAt? out i = some s) : out = constant n s := by
  obtain ⟨dataType, values⟩ := out
  have hvalue : ∀ i < n, values[i]? = some s.value ∧ dataType = s.dataType := by
    intro i hi
    obtain ⟨v, hv, hs⟩ := Option.map_eq_some_iff.mp (h i hi)
    cases hs
    exact ⟨hv, rfl⟩
  have hvalues : values = List.replicate n s.value := by
    apply List.eq_replicate_iff.mpr
    refine ⟨hlen, ?_⟩
    intro v hv
    obtain ⟨i, hi, rfl⟩ := List.mem_iff_getElem.mp hv
    have hget := (hvalue i (hlen ▸ hi)).1
    rw [List.getElem?_eq_getElem hi] at hget
    exact Option.some.inj hget
  rw [constant, hvalues, (hvalue 0 hn).2]

/-- On constant columns a row-wise function gives a constant column, or fails as on one row. -/
theorem RowWise.constant_iff (hf : RowWise inner g) (hn : 0 < n) (hne : ss ≠ []) :
    inner (ss.map (constant n)) = .ok out ↔ ∃ s, g ss = .ok s ∧ out = constant n s := by
  have hne' : ss.map (constant n) ≠ [] := by simpa using hne
  have hlen : ∀ a ∈ ss.map (constant n), a.values.length = n := by
    intro a ha
    obtain ⟨s, -, rfl⟩ := List.mem_map.mp ha
    simp [constant]
  have hok : ∀ out, inner (ss.map (constant n)) = .ok out →
      ∃ s, g ss = .ok s ∧ out = constant n s := by
    intro out hout
    obtain ⟨hl, hrows⟩ := hf.ok _ n out hne' hlen hout
    obtain ⟨s, hs, -⟩ := hrows 0 ss (row_constant_of_lt hn ss)
    refine ⟨s, hs, eq_constant hn hl ?_⟩
    intro i hi
    obtain ⟨s', hs', hat⟩ := hrows i ss (row_constant_of_lt hi ss)
    cases hs.symm.trans hs'
    exact hat
  constructor
  · exact hok out
  · rintro ⟨s, hs, rfl⟩
    cases hinner : inner (ss.map (constant n)) with
    | ok out =>
      obtain ⟨s', hs', rfl⟩ := hok out hinner
      cases hs.symm.trans hs'
      rfl
    | error e =>
      obtain ⟨i, row, hrow, e', he⟩ := hf.error _ n e hne' hlen hinner hn
      cases row_constant hrow
      cases hs.symm.trans he

end Rows

/-- Some of these scalars have been replaced by arrays that repeat them. -/
def Replaced (n : ℕ) (ss : List (ScalarValue T α)) (args : List (ColumnarValue T α)) : Prop :=
  List.Forall₂ (fun s arg => arg = .scalar s ∨ arg = .array (constant n s)) ss args

/-- The function gives the same answers for scalars as for columns. -/
structure Consistent (arrow : Arrow T α (Except E)) (inner : List (ArrayRef T α) → Except E (ArrayRef T α))
    (g : List (ScalarValue T α) → Except E (ScalarValue T α)) : Prop where
  arrays : ∀ args n, (∃ a, .array a ∈ args) → (∀ a, .array a ∈ args → a.values.length = n) →
    ∀ result, makeScalarFunction arrow inner args = .ok result →
    ∃ out, result = .array out ∧ out.values.length = n ∧
      ∀ i < n, ∀ row, List.Forall₂ (fun arg s => arg.at? i = some s) args row →
        ∃ s, g row = .ok s ∧ elementAt? out i = some s
  arrayErrors : ∀ args n, (∃ a, .array a ∈ args) → (∀ a, .array a ∈ args → a.values.length = n) →
    ∀ e, makeScalarFunction arrow inner args = .error e ↔
      inner (args.map (ColumnarValue.expand n)) = .error e
  scalars : ∀ ss, ss ≠ [] → ∀ result, makeScalarFunction arrow inner (ss.map .scalar) = .ok result ↔
    ∃ s, g ss = .ok s ∧ result = .scalar s
  scalarErrors : ∀ ss, ss ≠ [] → ∀ e, makeScalarFunction arrow inner (ss.map .scalar) = .error e ↔
    inner (ss.map (constant 1)) = .error e
  agree : ∀ ss n args, 0 < n → Replaced n ss args → (∃ a, .array a ∈ args) →
    ∀ s, makeScalarFunction arrow inner (ss.map .scalar) = .ok (.scalar s) ↔
      makeScalarFunction arrow inner args = .ok (.array (constant n s))
  agreeErrors : ∀ ss n args, 0 < n → Replaced n ss args → (∃ a, .array a ∈ args) →
    ((∃ e, makeScalarFunction arrow inner (ss.map .scalar) = .error e) ↔
      ∃ e, makeScalarFunction arrow inner args = .error e)

section Consistent

variable {arrow inner} {g : List (ScalarValue T α) → Except E (ScalarValue T α)}
  {args : List (ColumnarValue T α)} {ss : List (ScalarValue T α)} {n : ℕ}

theorem Replaced.expand (h : Replaced n ss args) :
    args.map (ColumnarValue.expand n) = ss.map (constant n) := by
  induction h with
  | nil => rfl
  | cons harg _ ih =>
    rw [List.map_cons, List.map_cons, ih]
    rcases harg with rfl | rfl <;> rfl

theorem Replaced.length (h : Replaced n ss args) :
    ∀ a, .array a ∈ args → a.values.length = n := by
  induction h with
  | nil => simp
  | cons harg _ ih =>
    intro a ha
    rcases List.mem_cons.mp ha with rfl | ha
    · rcases harg with harg | harg
      · cases harg
      · cases harg
        simp [constant]
    · exact ih a ha

theorem Replaced.ne_nil (h : Replaced n ss args) (ha : ∃ a, .array a ∈ args) : ss ≠ [] := by
  rintro rfl
  cases h
  obtain ⟨a, ha⟩ := ha
  cases ha

theorem RowWise.scalars_iff (harrow : arrow.Documented) (hf : RowWise inner g) (hne : ss ≠ [])
    (result : ColumnarValue T α) : makeScalarFunction arrow inner (ss.map .scalar) = .ok result ↔
      ∃ s, g ss = .ok s ∧ result = .scalar s := by
  have hfirst : ∀ s : ScalarValue T α, arrow.tryFromArray (constant 1 s) 0 = .ok s :=
    fun s => harrow.tryFromArray _ _ _ (by simp)
  rw [makeScalarFunction_of_scalars harrow, map_eq_ok_iff]
  constructor
  · rintro ⟨s, hs, rfl⟩
    obtain ⟨out, hout, hs⟩ := bind_eq_ok_iff.mp hs
    obtain ⟨s', hs', rfl⟩ := (hf.constant_iff Nat.one_pos hne).mp hout
    cases (hfirst s').symm.trans hs
    exact ⟨_, hs', rfl⟩
  · rintro ⟨s, hs, rfl⟩
    have hout := (hf.constant_iff Nat.one_pos hne).mpr ⟨s, hs, rfl⟩
    exact ⟨s, bind_eq_ok_iff.mpr ⟨_, hout, hfirst s⟩, rfl⟩

theorem RowWise.replaced_iff (harrow : arrow.Documented) (hf : RowWise inner g) (hn : 0 < n)
    (hr : Replaced n ss args) (ha : ∃ a, .array a ∈ args) (result : ColumnarValue T α) :
    makeScalarFunction arrow inner args = .ok result ↔
      ∃ s, g ss = .ok s ∧ result = .array (constant n s) := by
  rw [makeScalarFunction_of_array harrow ha hr.length, hr.expand, map_eq_ok_iff]
  constructor
  · rintro ⟨out, hout, rfl⟩
    obtain ⟨s, hs, rfl⟩ := (hf.constant_iff hn (hr.ne_nil ha)).mp hout
    exact ⟨s, hs, rfl⟩
  · rintro ⟨s, hs, rfl⟩
    exact ⟨_, (hf.constant_iff hn (hr.ne_nil ha)).mpr ⟨s, hs, rfl⟩, rfl⟩

theorem constant_injective (hn : 0 < n) {s s' : ScalarValue T α} (h : constant n s = constant n s') :
    s = s' := by
  have hat := congrArg (elementAt? · 0) h
  simpa [hn] using hat

/-- A row-wise function gives the same answer for scalars as for columns. -/
theorem make_scalar_function_consistent (arrow : Arrow T α (Except E)) (harrow : arrow.Documented)
    (inner : List (ArrayRef T α) → Except E (ArrayRef T α))
    (g : List (ScalarValue T α) → Except E (ScalarValue T α)) (hf : RowWise inner g) :
    Consistent arrow inner g where
  arrays args n ha h result hr := by
    rw [makeScalarFunction_of_array harrow ha h, map_eq_ok_iff] at hr
    obtain ⟨out, hout, rfl⟩ := hr
    have hne : args.map (ColumnarValue.expand n) ≠ [] := by
      obtain ⟨a, ha⟩ := ha
      simpa using List.ne_nil_of_mem ha
    obtain ⟨hlen, hrows⟩ := hf.ok _ n out hne (expand_length h) hout
    exact ⟨out, rfl, hlen, fun i hi row hrow => hrows i row (row_expand hi hrow)⟩
  arrayErrors args n ha h e := by
    rw [makeScalarFunction_of_array harrow ha h, map_eq_error_iff]
  scalars ss hne result := hf.scalars_iff harrow hne result
  scalarErrors ss hne e := by
    rw [makeScalarFunction_of_scalars harrow, map_eq_error_iff, bind_eq_error_iff]
    constructor
    · rintro (he | ⟨out, hout, he⟩)
      · exact he
      · obtain ⟨s, -, rfl⟩ := (hf.constant_iff Nat.one_pos hne).mp hout
        rw [harrow.tryFromArray _ 0 s (by simp)] at he
        cases he
    · exact .inl
  agree ss n args hn hr ha s := by
    rw [hf.scalars_iff harrow (hr.ne_nil ha), hf.replaced_iff harrow hn hr ha]
    constructor
    · rintro ⟨s', hs', heq⟩
      cases heq
      exact ⟨_, hs', rfl⟩
    · rintro ⟨s', hs', heq⟩
      cases constant_injective hn (ColumnarValue.array.inj heq)
      exact ⟨s, hs', rfl⟩
  agreeErrors ss n args hn hr ha := by
    rw [exists_error_iff, exists_error_iff]
    simp only [hf.scalars_iff harrow (hr.ne_nil ha), hf.replaced_iff harrow hn hr ha]
    simp

end Consistent

section Python

variable {W O L : Type} {py : Python W O T α L}

/-- A function written in Python, called in some state of the interpreter, answers as
`make_scalar_function` of what its call answers there. -/
theorem toRustFunction_result (kernels : Kernels T α) (func : O) (args : List (ColumnarValue T α))
    (w : W) : (toRustFunction py kernels func args w).result =
      makeScalarFunction kernels.plain (fun arrays => (callPython py func arrays w).result) args := by
  have harrays : ∀ n, args.mapM (intoArray kernels.arrow n) =
      (Adapter.lift (args.mapM (intoArray kernels.plain n)) :
        Adapter W Mishap Failure (List (ArrayRef T α))) := by
    intro n
    rw [← Adapter.mapM_lift]
    congr 1
    funext arg
    cases arg <;> rfl
  simp only [toRustFunction, makeScalarFunction, harrays]
  cases args.mapM (intoArray kernels.plain ((args.foldl lengthOf none).getD 1)) with
  | error e => rfl
  | ok arrays =>
    simp only [Adapter.lift, pure_bind, Adapter.result_bind]
    cases hcall : (callPython py func arrays w).result with
    | error e => simp [bind, Except.bind, hcall]
    | ok result =>
      simp only [bind, Except.bind, hcall]
      cases args.foldl lengthOf none with
      | some n => rfl
      | none =>
        simp only [Kernels.arrow, Kernels.plain]
        rcases kernels.tryFromArray result 0 with _ | (_ | _) <;> rfl

end Python

def plainKernels : Kernels String ℤ where
  toArrayOfSize s n := .ok (constant n s)
  tryFromArray array i := (elementAt? array i).map .ok

theorem plainKernels_documented : plainKernels.plain.Documented where
  toArrayOfSize _ _ := rfl
  tryFromArray array i s h := by simp [plainKernels, Kernels.plain, h, Except.mapError]

def sumOf (args : List (ArrayRef String ℤ)) : ArrayRef String ℤ :=
  let length := args.head?.elim 0 fun a => a.values.length
  ⟨"Int64", (List.range length).map fun i => (args.map fun a => a.values[i]?.getD 0).sum⟩

/-- A Python function that adds up its arguments. -/
def adding : Python Unit (ArrayRef String ℤ) String ℤ Unit := { raisingAll ⟨"Null", []⟩ ⟨0⟩ with
  call _ args w := (.ok (sumOf args), w)
  array o w := (.ok o, w)
  ofArray a w := (.ok a, w) }

def addRow (row : List (ScalarValue String ℤ)) : Except Failure (ScalarValue String ℤ) :=
  .ok ⟨"Int64", (row.map ScalarValue.value).sum⟩

theorem callPython_adding (func : ArrayRef String ℤ) (args : List (ArrayRef String ℤ)) :
    (callPython adding func args ()).result = .ok (sumOf args) := by
  have hargs : (toPyarrow adding .scalarFunctionArgs args :
      Adapter Unit Mishap Failure (List (ArrayRef String ℤ))) = pure args := by
    unfold toPyarrow
    induction args with
    | nil => rfl
    | cons a args ih =>
      rw [List.mapM_cons, ih]
      rfl
  rw [callPython, hargs]
  rfl

theorem adding_rowWise (func : ArrayRef String ℤ) :
    RowWise (fun args => (callPython adding func args ()).result) addRow where
  ok args n out hne hlen h := by
    rw [callPython_adding] at h
    cases h
    have hhead : args.head?.elim 0 (fun a => a.values.length) = n := by
      cases args with
      | nil => exact absurd rfl hne
      | cons a args => exact hlen a List.mem_cons_self
    simp only [sumOf, hhead]
    refine ⟨by simp, ?_⟩
    intro i row hrow
    refine ⟨_, rfl, ?_⟩
    have hlt : i < n := by
      cases hrow with
      | nil => exact absurd rfl hne
      | cons ha _ => exact hlen _ List.mem_cons_self ▸ elementAt?_lt ha
    have hvalues : args.map (fun a => a.values[i]?.getD 0) = row.map ScalarValue.value := by
      clear hne hlen hhead
      induction hrow with
      | nil => rfl
      | cons ha _ ih =>
        obtain ⟨v, hv, hs⟩ := Option.map_eq_some_iff.mp ha
        cases hs
        rw [List.map_cons, List.map_cons, ih, hv]
        rfl
    simp [elementAt?, hlt, hvalues]
  error args n e hne hlen h hn := by
    rw [callPython_adding] at h
    cases h

theorem make_scalar_function_consistent_adding :
    (toRustFunction adding plainKernels ⟨"Null", []⟩
      [.scalar ⟨"Int64", 1⟩, .scalar ⟨"Int64", 2⟩] ()).result = .ok (.scalar ⟨"Int64", 3⟩) := by
  rw [toRustFunction_result]
  exact ((make_scalar_function_consistent plainKernels.plain plainKernels_documented _ addRow
    (adding_rowWise _)).scalars [⟨"Int64", 1⟩, ⟨"Int64", 2⟩] (by simp) _).mpr ⟨_, rfl, rfl⟩

end XorqDatafusion.Udf
