import Mathlib.Data.Multiset.Filter
import Mathlib.Data.Multiset.MapFold

/-! Tables of rows by column name: what a scan may select and project without the plan above it seeing
a difference. -/
namespace Selection

variable {N V W β : Type*} {test taken left : (N → Option W) → Bool} {out : (N → Option W) → β}
  {names : List N} {read : V → Option W} {row : N → V} {name : N}

/-- What is made of the rows that pass a test. -/
def select (test : (N → Option W) → Bool) (out : (N → Option W) → β)
    (rows : Multiset (N → Option W)) : Multiset β :=
  (rows.filter (test ·)).map out

theorem select_mono {rows rows' : Multiset (N → Option W)} (h : rows ≤ rows') :
    select test out rows ≤ select test out rows' :=
  Multiset.map_le_map (Multiset.filter_le_filter _ h)

/-- Nothing but the columns of these names is looked at. -/
def Local (names : List N) (f : (N → Option W) → β) : Prop :=
  ∀ row row', (∀ name ∈ names, row name = row' name) → f row = f row'

variable [DecidableEq N]

/-- Cells under these names, as a row; a name that is not among them has no value. -/
def assemble (read : V → Option W) (names : List N) (cells : List V) : N → Option W :=
  fun name => ((names.zip cells).lookup name).bind read

theorem assemble_map (h : name ∈ names) :
    assemble read names (names.map row) name = read (row name) := by
  unfold assemble
  induction names with
  | nil => cases h
  | cons head names ih =>
    rw [List.map_cons, List.zip_cons_cons, List.lookup_cons]
    by_cases hn : name = head
    · subst hn
      simp
    · rw [beq_false_of_ne hn]
      exact ih (List.mem_of_ne_of_mem hn h)

theorem Local.assemble_map {f : (N → Option W) → β} (h : Local names f) (row : N → V) :
    f (assemble read names (names.map row)) = f (read ∘ row) :=
  h _ _ fun _ hn => Selection.assemble_map hn

/-- A scan may select with some of the tests and project to the columns the others and the result look
at. -/
theorem select_scan (htest : ∀ row, test row = (taken row && left row)) (hleft : Local names left)
    (hout : Local names out) (rows : Multiset (N → V)) :
    select left out (((rows.filter fun row => taken (read ∘ row)).map names.map).map
      (assemble read names)) = select test out (rows.map (read ∘ ·)) := by
  have hpass : ∀ row ∈ rows, (left (assemble read names (names.map row)) = true ∧
      taken (read ∘ row) = true) ↔ test (read ∘ row) = true := by
    intro row _
    rw [htest, hleft.assemble_map, Bool.and_eq_true, and_comm]
  simp only [select, Multiset.map_map, Multiset.filter_map, Multiset.filter_filter]
  refine (congrArg _ (Multiset.filter_congr hpass)).trans (Multiset.map_congr rfl ?_)
  intro row _
  exact hout.assemble_map row

end Selection
