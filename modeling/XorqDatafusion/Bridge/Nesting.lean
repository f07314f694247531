import XorqDatafusion.Bridge.Liveness
import Mathlib.Data.Finset.Card
import Mathlib.Logic.Relation

/-! Streams whose closures read other streams of the process, as a reader does that runs queries of its
own: the nesting does not change what the streams deliver. -/
namespace XorqDatafusion.Bridge

open Transition

variable {B E : Type} {c : Config B E} {check : B → Except E Unit} {pull : ℕ → Outcome B E}
  {o o' : Outcome B E} {p q : Budget × Stream B E} {s : Stream B E} {a : Action B E} {m n N : ℕ}
  {item : Except E B} {x : Option (Except E B)} {payload : String}

/-- What the consumer saw when it asked for the `n`-th time, the end of the stream being `none`. -/
def Stream.seen (s : Stream B E) (n : ℕ) : Option (Option (Except E B)) :=
  match s.delivered[n]? with
  | some item => some (some item)
  | none => if s.ending = some .clean then some none else none

/-- What a source shows a consumer that asks for the `n`-th time. When a panic is seen depends on how
far the stream has read ahead, so it is not among this. -/
def shows (check : B → Except E Unit) (pull : ℕ → Outcome B E) (n : ℕ) : Option (Option (Except E B)) :=
  match (spec check (firstCalls pull (n + 1)))[n]? with
  | some item => some (some item)
  | none => if verdict check (firstCalls pull (n + 1)) = .ended then some none else none

theorem spec_length_firstCalls (h : verdict check (firstCalls pull n) = .going) :
    (spec check (firstCalls pull n)).length = n := by
  simpa [firstCalls] using spec_length_of_going h

theorem firstCalls_spec_prefix (check : B → Except E Unit) (pull : ℕ → Outcome B E) (hmn : m ≤ n) :
    spec check (firstCalls pull m) <+: spec check (firstCalls pull n) := by
  obtain ⟨os, hos⟩ := firstCalls_prefix pull hmn
  rw [← hos]
  exact spec_prefix_append

/-- Either the first calls have already answered so much, or the source is over. -/
theorem spec_getElem?_succ (h : (spec check (firstCalls pull N))[n]? = some item) :
    (spec check (firstCalls pull (n + 1)))[n]? = some item := by
  have hlt := (List.getElem?_eq_some_iff.mp h).1
  by_cases hg : verdict check (firstCalls pull (n + 1)) = .going
  · have hlen := spec_length_firstCalls hg
    rcases Nat.le_total N (n + 1) with hle | hle
    · obtain ⟨xs, hxs⟩ := firstCalls_spec_prefix check pull hle
      rw [← hxs, List.getElem?_append_left hlt, h]
    · obtain ⟨xs, hxs⟩ := firstCalls_spec_prefix check pull hle
      rwa [← hxs, List.getElem?_append_left (by omega)] at h
  · obtain ⟨xs, hxs⟩ := spec_prefix_of_over hg N
    rw [← hxs, List.getElem?_append_left hlt, h]

theorem shows_of_getElem? (h : (spec check (firstCalls pull N))[n]? = some item) :
    shows check pull n = some (some item) := by
  rw [shows, spec_getElem?_succ h]

theorem shows_of_ended (hv : verdict check (firstCalls pull N) = .ended)
    (h : (spec check (firstCalls pull N))[n]? = none) : shows check pull n = some none := by
  have hN : verdict check (firstCalls pull N) ≠ .going := by simp [hv]
  have hlen := (spec_prefix_of_over hN (n + 1)).length_le
  rw [List.getElem?_eq_none_iff] at h
  have hover : verdict check (firstCalls pull (n + 1)) ≠ .going := by
    intro hg
    have hn := spec_length_firstCalls hg
    omega
  have hended : verdict check (firstCalls pull (n + 1)) = .ended := by
    rw [verdict_firstCalls_eq hover hN, hv]
  simp only [shows, hended, if_true, List.getElem?_eq_none (Nat.le_trans hlen h)]

/-- A source that does not panic has something to show at any time. -/
theorem exists_shows (h : ∀ payload, ¬Panics check pull payload) (n : ℕ) :
    ∃ x, shows check pull n = some x := by
  unfold shows
  split
  · exact ⟨_, rfl⟩
  · rename_i hnone
    cases hv : verdict check (firstCalls pull (n + 1)) with
    | going =>
      have hlen := spec_length_firstCalls hv
      rw [List.getElem?_eq_none_iff] at hnone
      omega
    | ended => exact ⟨none, if_pos rfl⟩
    | panicked payload => exact absurd ⟨_, hv⟩ (h payload)

/-- A consumer sees what the source shows. -/
theorem seen_shows (h : ((component c).restrict (Answers pull)).alone.Reachable p)
    (hs : p.2.seen n = some x) : shows c.check pull n = some x := by
  have hI := reachable_lossless (Component.alone_reachable_of_restrict h)
  have hans := answers_eq_firstCalls h
  unfold Stream.seen at hs
  split at hs
  · rename_i item hitem
    cases hs
    obtain ⟨xs, hxs⟩ := hI.delivered
    rw [hans] at hxs
    refine shows_of_getElem? (N := p.2.answers.length) ?_
    rw [← hxs, List.getElem?_append_left (List.getElem?_eq_some_iff.mp hitem).1, hitem]
  · rename_i hnone
    split at hs
    · rename_i he
      cases hs
      obtain ⟨hv, hall⟩ := hI.clean he
      rw [hans] at hv hall
      exact shows_of_ended hv (by rw [← hall, hnone])
    · cases hs

/-- Who has got an item, or the end, has seen it. -/
theorem Stream.exists_seen (hc : ∀ payload, s.ending ≠ some (.panicked payload))
    (hs : s.ending ≠ none ∨ n < s.delivered.length) : ∃ x, s.seen n = some x := by
  unfold Stream.seen
  split
  · exact ⟨_, rfl⟩
  · rename_i hnone
    rw [List.getElem?_eq_none_iff] at hnone
    cases he : s.ending with
    | none => exact absurd (hs.resolve_left (by simp [he])) (by omega)
    | some ending =>
      cases ending with
      | clean => exact ⟨none, if_pos rfl⟩
      | panicked payload => exact absurd he (hc payload)

/-- A consumer that has been shown a panic is shown nothing else. -/
theorem Step.panic_lasts (h : Step c p a q) (hp : Lossless c p.2) (hq : Lossless c q.2)
    (he : p.2.ending = some (.panicked payload)) : q.2.ending = some (.panicked payload) := by
  have hv := hp.panicked payload he
  cases h with
  | coordinator h => rw [h.frame]; exact he
  | abort _ h => rw [h.frame]; exact he
  | host h => rw [h.frame]; exact he
  | answer => rw [pullReturned_frame]; exact he
  | pollNext => rw [Stream.pollNext_frame]; exact he
  | endOfStream =>
    have hended := (hq.clean rfl).1
    cases hended.symm.trans hv
  | propagatePanic =>
    have hpanicked := hq.panicked _ rfl
    cases hpanicked.symm.trans hv
    rfl
  | _ => exact he

/-- What a closure does next: its call comes back, or it asks a stream for an item. -/
inductive Next (ι B E : Type)
  | answer (o : Outcome B E)
  | ask (j : ι)
deriving DecidableEq

section Reading

variable {ι : Type} [DecidableEq ι] {reader : List (ι × Option (Except E B)) → Next ι B E}
  {seen seen' : ι → ℕ → Option (Option (Except E B))} {xs : List (ι × Option (Except E B))}

/-- A call of a closure that reads streams, from what it has been shown by them on: it comes back, or
waits for a stream. -/
def readOn (reader : List (ι × Option (Except E B)) → Next ι B E)
    (seen : ι → ℕ → Option (Option (Except E B))) :
    ℕ → List (ι × Option (Except E B)) → Option (Next ι B E)
  | 0, _ => none
  | n + 1, xs => match reader xs with
    | .answer o => some (.answer o)
    | .ask j => match seen j (xs.countP (·.1 = j)) with
      | some x => readOn reader seen n (xs ++ [(j, x)])
      | none => some (.ask j)

def Reads (reader : List (ι × Option (Except E B)) → Next ι B E)
    (seen : ι → ℕ → Option (Option (Except E B))) (o : Outcome B E) : Prop :=
  ∃ n, readOn reader seen n [] = some (.answer o)

def Waits (reader : List (ι × Option (Except E B)) → Next ι B E)
    (seen : ι → ℕ → Option (Option (Except E B))) (j : ι) : Prop :=
  ∃ n, readOn reader seen n [] = some (.ask j)

theorem readOn_answer (h : reader xs = .answer o) : readOn reader seen (n + 1) xs = some (.answer o) := by
  rw [readOn, h]

theorem readOn_seen {j : ι} (h : reader xs = .ask j) (hx : seen j (xs.countP (·.1 = j)) = some x) :
    readOn reader seen (n + 1) xs = readOn reader seen n (xs ++ [(j, x)]) := by
  rw [readOn, h]
  simp only [hx]

theorem readOn_unseen {j : ι} (h : reader xs = .ask j) (hx : seen j (xs.countP (·.1 = j)) = none) :
    readOn reader seen (n + 1) xs = some (.ask j) := by
  rw [readOn, h]
  simp only [hx]

/-- What is seen later does not change an answer, and it only depends on the streams asked. -/
theorem readOn_mono (h : readOn reader seen n xs = some (.answer o))
    (hs : ∀ j k x, (∃ ys, reader ys = .ask j) → seen j k = some x → seen' j k = some x) (hnm : n ≤ m) :
    readOn reader seen' m xs = some (.answer o) := by
  induction n generalizing m xs with
  | zero => cases h
  | succ n ih =>
    obtain ⟨m, rfl⟩ : ∃ k, m = k + 1 := ⟨m - 1, by omega⟩
    cases hr : reader xs with
    | answer o' =>
      rw [readOn_answer hr] at h
      rw [readOn_answer hr, h]
    | ask j =>
      cases hx : seen j (xs.countP (·.1 = j)) with
      | none =>
        rw [readOn_unseen hr hx] at h
        cases h
      | some x =>
        rw [readOn_seen hr hx] at h
        rw [readOn_seen hr (hs j _ x ⟨xs, hr⟩ hx)]
        exact ih h (by omega)

theorem Reads.mono (h : Reads reader seen o)
    (hs : ∀ j k x, (∃ ys, reader ys = .ask j) → seen j k = some x → seen' j k = some x) :
    Reads reader seen' o := by
  obtain ⟨n, hn⟩ := h
  exact ⟨n, readOn_mono hn hs le_rfl⟩

theorem Reads.unique (h : Reads reader seen o) (h' : Reads reader seen o') : o = o' := by
  obtain ⟨n, hn⟩ := h
  obtain ⟨m, hm⟩ := h'
  have hn' := readOn_mono hn (fun _ _ _ _ hx => hx) (Nat.le_add_right n m)
  have hm' := readOn_mono hm (fun _ _ _ _ hx => hx) (Nat.le_add_left m n)
  cases hn'.symm.trans hm'
  rfl

end Reading

/-- What the `n`-th call of each closure makes of all that the closure has been shown since it was
created, and whom it asks for more. A stream has one consumer only. -/
structure Nesting (ι B E : Type) where
  reader : ι → ℕ → List (ι × Option (Except E B)) → Next ι B E
  own : ∀ {i i' j n n' xs xs'}, reader i n xs = .ask j → reader i' n' xs' = .ask j → i = i'

variable {ι : Type} {N : Nesting ι B E} {checks : ι → B → Except E Unit} {i j : ι}

namespace Nesting

/-- The closure of the stream `i` may come to read the stream `j`. -/
def Inner (N : Nesting ι B E) (j i : ι) : Prop := ∃ n xs, N.reader i n xs = .ask j

/-- None of the streams that a closure reads, itself or through others, has shown its reader a panic. -/
def Calm (N : Nesting ι B E) (p : Budget × (ι → Stream B E)) (i : ι) : Prop :=
  ∀ j payload, Relation.TransGen N.Inner j i → (p.2 j).ending ≠ some (.panicked payload)

theorem Calm.inner {p : Budget × (ι → Stream B E)} (h : N.Calm p i)
    (hj : Relation.ReflTransGen N.Inner j i) : N.Calm p j :=
  fun k payload hk => h k payload (hk.trans_left hj)

variable [DecidableEq ι]

/-- A call comes back when its closure has seen enough of the streams it reads. What comes of a panic
that one of them shows is left open. -/
def Answers (N : Nesting ι B E) (p : Budget × (ι → Stream B E)) : ι × Action B E → Prop
  | (i, .answer o) => Reads (N.reader i (p.2 i).answers.length) (fun j => (p.2 j).seen) o ∨
      ∃ j payload, N.Inner j i ∧ (p.2 j).ending = some (.panicked payload)
  | _ => True

/-- What the calls of a closure answer, if they come back, when it reads its streams as sequences. -/
def SequentialAt (N : Nesting ι B E) (checks : ι → B → Except E Unit) (pull : ι → ℕ → Outcome B E)
    (i : ι) : Prop :=
  ∀ n o, Reads (N.reader i n) (fun j => shows (checks j) (pull j)) o → pull i n = o

/-- An acyclic nesting has a sequential reading. -/
theorem exists_sequential (hwf : WellFounded N.Inner) (checks : ι → B → Except E Unit) :
    ∃ pull, ∀ i, N.SequentialAt checks pull i := by
  classical
  let owed (i : ι) (inner : ∀ j, N.Inner j i → ℕ → Outcome B E) (n : ℕ) (o : Outcome B E) : Prop :=
    Reads (N.reader i n)
      (fun j k => if hj : N.Inner j i then shows (checks j) (inner j hj) k else none) o
  let calls (i : ι) (inner : ∀ j, N.Inner j i → ℕ → Outcome B E) (n : ℕ) : Outcome B E :=
    if h : ∃ o, owed i inner n o then h.choose else .done
  let pull : ι → ℕ → Outcome B E := hwf.fix calls
  refine ⟨pull, fun i n o h => ?_⟩
  have ho : owed i (fun j _ => pull j) n o := by
    refine h.mono fun j k x hj hx => ?_
    rw [dif_pos ⟨n, hj⟩]
    exact hx
  have heq : pull i n = if h : ∃ o, owed i (fun j _ => pull j) n o then h.choose else .done :=
    congrFun (hwf.fix_eq calls i) n
  rw [heq, dif_pos ⟨o, ho⟩]
  exact (Exists.choose_spec (⟨o, ho⟩ : ∃ o, owed i (fun j _ => pull j) n o)).unique ho

end Nesting

/-- A thread of the blocking pool drains the stream. -/
def Stream.OnPool (s : Stream B E) : Prop := ∃ r, s.host = .pool (.draining r)

/-- The streams hold all threads of the blocking pool. -/
def Full (threads : ℕ) (p : Budget × (ι → Stream B E)) : Prop :=
  ∃ S : Finset ι, threads ≤ S.card ∧ ∀ j ∈ S, (p.2 j).OnPool

theorem not_full [Fintype ι] {threads : ℕ} (h : Fintype.card ι < threads)
    (p : Budget × (ι → Stream B E)) : ¬Full threads p := by
  rintro ⟨S, hS, -⟩
  have hle := Finset.card_le_univ S
  omega

/-- What `spawn_blocking` queues: a round, or the disposal of a closure. -/
def Action.NeedsThread (s : Stream B E) : Action B E → Prop
  | .host => ∃ credit, s.host = .pool (.queued credit)
  | .dispose => True
  | _ => False

section Process

variable {T α : Type} [DecidableEq T] [ToString T] [DecidableEq ι] {schema : ι → Schema T}
  {readAhead : ι → ReadAhead} {N : Nesting ι (RecordBatch T α) DataFusionError} {threads : ℕ}
  {pull : ι → ℕ → Outcome (RecordBatch T α) DataFusionError}
  {p q : Budget × (ι → Stream (RecordBatch T α) DataFusionError)}
  {a : ι × Action (RecordBatch T α) DataFusionError} {i j : ι}

/-- The streams of a process, some of them read by the closures of others, with so many threads in the
blocking pool. A pull keeps its thread while its closure reads. -/
def nested (schema : ι → Schema T) (readAhead : ι → ReadAhead)
    (N : Nesting ι (RecordBatch T α) DataFusionError) (threads : ℕ) :
    System (Budget × (ι → Stream (RecordBatch T α) DataFusionError))
      (ι × Action (RecordBatch T α) DataFusionError) :=
  (process (streamConfig schema readAhead)).restrict fun p a =>
    N.Answers p a ∧ (a.2.NeedsThread (p.2 a.1) → ¬Full threads p)

theorem nested_process (h : (nested schema readAhead N threads).Reachable p) (i : ι) :
    (component (streamConfig schema readAhead i)).alone.Reachable (p.1, p.2 i) := by
  refine family_reachable_alone (System.reachable_invariant (T := nested schema readAhead N threads)
    (I := (process (streamConfig schema readAhead)).Reachable) (fun p hp => .of_start hp) ?_ h) i
  intro p a q hs hp
  exact hp.step hs.1

theorem nested_step_cases (h : (nested schema readAhead N threads).Reachable p)
    (hs : (nested schema readAhead N threads).step p a q) (i : ι) :
    (a.1 = i ∧ Step (streamConfig schema readAhead i) (p.1, p.2 i) a.2 (q.1, q.2 i)) ∨
      (a.1 ≠ i ∧ q.2 i = p.2 i) := by
  obtain ⟨⟨k, s, hs, rfl⟩, -⟩ := hs
  by_cases hi : a.1 = i
  · subst hi
    refine .inl ⟨rfl, ?_⟩
    simp only [Function.update_self]
    exact reachable_step (nested_process h a.1) hs
  · exact .inr ⟨hi, Function.update_of_ne (Ne.symm hi) _ _⟩

/-- A panic that has been shown was not avoided later. -/
theorem Nesting.Calm.before (hp : (nested schema readAhead N threads).Reachable p)
    (hs : (nested schema readAhead N threads).step p a q) (h : N.Calm q i) : N.Calm p i := by
  intro j payload hj he
  refine h j payload hj ?_
  rcases nested_step_cases hp hs j with ⟨-, hstep⟩ | ⟨-, hsame⟩
  · exact hstep.panic_lasts (reachable_lossless (nested_process hp j))
      (reachable_lossless (nested_process (hp.step hs) j)) he
  · rw [hsame, he]

/-- What a closure has seen of the streams it reads, is what it would have read there. -/
theorem nested_answers {act : Action (RecordBatch T α) DataFusionError}
    (hs : N.SequentialAt (fun i => checkBatchSchema (schema i)) pull i) (hc : N.Calm p i)
    (hinner : ∀ j, N.Inner j i →
      (spawnChannelStream (schema j) (pull j) (readAhead j)).alone.Reachable (p.1, p.2 j))
    (ha : N.Answers p (i, act)) : Answers (pull i) (p.1, p.2 i) act := by
  cases act with
  | answer o =>
    show o = pull i (p.2 i).answers.length
    rcases ha with hreads | ⟨j, payload, hj, he⟩
    · refine (hs _ o (hreads.mono fun j k x hj hx => ?_)).symm
      exact seen_shows (hinner j ⟨_, hj⟩) hx
    · exact absurd he (hc j payload (.single hj))
  | _ => trivial

/-- As long as it has been shown no panic, a closure goes on as if it read sequences. -/
theorem nested_alone
    (hs : ∀ j, Relation.ReflTransGen N.Inner j i →
      N.SequentialAt (fun i => checkBatchSchema (schema i)) pull j)
    (h : (nested schema readAhead N threads).Reachable p) (hc : N.Calm p i) :
    (spawnChannelStream (schema i) (pull i) (readAhead i)).alone.Reachable (p.1, p.2 i) := by
  have hall : ∀ j, Relation.ReflTransGen N.Inner j i → N.Calm p j →
      (spawnChannelStream (schema j) (pull j) (readAhead j)).alone.Reachable (p.1, p.2 j) := by
    refine System.reachable_invariant_of_reachable
      (I := fun p => ∀ j, Relation.ReflTransGen N.Inner j i → N.Calm p j →
        (spawnChannelStream (schema j) (pull j) (readAhead j)).alone.Reachable (p.1, p.2 j)) ?_ ?_ h
    · intro p hp j _ _
      exact .of_start (hp.2 j)
    · intro p a q hp hstep ih j hj hq
      have hcalm := hq.before hp hstep
      obtain ⟨⟨k, s, hs', rfl⟩, ha, -⟩ := hstep
      by_cases hi : a.1 = j
      · subst hi
        refine (ih a.1 hj hcalm).step (a := some a.2) ⟨by simpa using hs', ?_⟩
        exact nested_answers (hs a.1 hj) hcalm
          (fun k hk => ih k (.head hk hj) (hcalm.inner (.single hk))) ha
      · refine (ih j hj hcalm).step (a := none) ?_
        exact Function.update_of_ne (Ne.symm hi) _ _
  exact hall i .refl hc

/-- Nesting changes nothing about what the streams deliver, in any interleaving. There is what each
closure owes when it reads its streams as sequences, as far as its calls come back then; and as long as
no panic comes up from the streams below, a stream delivers an initial part of it, and all of it before
a clean end, and panics only if its closure does. -/
theorem nested_lossless (hwf : WellFounded N.Inner) :
    (∃ pull, ∀ i, N.SequentialAt (fun i => checkBatchSchema (schema i)) pull i) ∧
      ∀ pull, (∀ i, N.SequentialAt (fun i => checkBatchSchema (schema i)) pull i) →
        ∀ p, (nested schema readAhead N threads).Reachable p → ∀ i, N.Calm p i →
          (spawnChannelStream (schema i) (pull i) (readAhead i)).alone.Reachable (p.1, p.2 i) ∧
          Within (checkBatchSchema (schema i)) (pull i) (p.2 i).delivered ∧
          ((p.2 i).ending = some .clean →
            Complete (checkBatchSchema (schema i)) (pull i) (p.2 i).delivered) ∧
          ∀ payload, (p.2 i).ending = some (.panicked payload) →
            Panics (checkBatchSchema (schema i)) (pull i) payload := by
  refine ⟨N.exists_sequential hwf _, fun pull hs p h i hc => ?_⟩
  have hi := nested_alone (fun j _ => hs j) h hc
  exact ⟨hi, delivered_within hi, complete_of_clean hi, fun payload => panics_of_ending hi⟩

end Process

section Chain

variable {os : List (Outcome B E)} {f : B → B} {fs : ℕ → B → B} {checks : ℕ → B → Except E Unit}
  {source : ℕ → Outcome B E} {d : ℕ} {i j : Fin (d + 1)}

theorem verdict_ne_panicked (h : ∀ o ∈ os, ∀ payload, o ≠ .panic payload) (payload : String) :
    verdict check os ≠ .panicked payload := by
  induction os with
  | nil =>
    intro h
    cases h
  | cons o os ih =>
    obtain ⟨ho, hos⟩ := List.forall_mem_cons.mp h
    have hrest := ih hos
    cases o with
    | batch b => cases hb : check b <;> simp [verdict, Outcome.verdict, hb, hrest]
    | error e | done => simp [verdict, Outcome.verdict]
    | panic payload => exact absurd rfl (ho payload)

theorem not_panics (h : ∀ n payload, pull n ≠ .panic payload) (payload : String) :
    ¬Panics check pull payload := by
  rintro ⟨n, hn⟩
  refine verdict_ne_panicked (fun o ho => ?_) payload hn
  obtain ⟨k, -, rfl⟩ := List.mem_map.mp ho
  exact h k

/-- What a generator yields for an item of the stream it iterates over. -/
def yields (f : B → B) : Option (Except E B) → Outcome B E
  | some (.ok batch) => .batch (f batch)
  | some (.error e) => .error e
  | none => .done

def generator (k : ι) (f : B → B) (n : ℕ) (xs : List (ι × Option (Except E B))) : Next ι B E :=
  match xs[n]? with
  | some x => .answer (yields f x.2)
  | none => .ask k

theorem reads_generator [DecidableEq ι] (k : ι) (seen : ι → ℕ → Option (Option (Except E B)))
    {shown : ℕ → Option (Except E B)} (hseen : ∀ m, seen k m = some (shown m)) (f : B → B) (n : ℕ) :
    Reads (generator k f n) seen (yields f (shown n)) := by
  have hread : ∀ m ≤ n + 1, readOn (generator k f n) seen (n + 2 - m)
      ((List.range m).map fun l => (k, shown l)) = some (.answer (yields f (shown n))) := by
    intro m hm
    induction hd : n + 1 - m generalizing m with
    | zero =>
      obtain rfl : m = n + 1 := by omega
      have hfuel : n + 2 - (n + 1) = 0 + 1 := by omega
      rw [hfuel]
      exact readOn_answer (by simp [generator])
    | succ d ih =>
      have hnext := ih (m + 1) (by omega) (by omega)
      have hask : generator k f n ((List.range m).map fun l => (k, shown l)) = .ask k := by
        have hnone : ((List.range m).map fun l => (k, shown l))[n]? = none := by
          rw [List.getElem?_eq_none_iff, List.length_map, List.length_range]
          omega
        rw [generator, hnone]
      have hcount : (((List.range m).map fun l => (k, shown l)).countP (·.1 = k)) = m := by
        simp [List.countP_map, Function.comp_def]
      have hfuel : n + 2 - m = n + 2 - (m + 1) + 1 := by omega
      rw [hfuel, readOn_seen hask (by rw [hcount, hseen])]
      simpa [List.range_succ] using hnext
  exact ⟨_, hread 0 (by omega)⟩

theorem eq_of_generator {k l : ι} {xs : List (ι × Option (Except E B))}
    (h : generator k f n xs = .ask l) : k = l := by
  unfold generator at h
  split at h
  · cases h
  · cases h
    rfl

/-- The closures of generators that iterate over one another's streams, `d` of them over a source. -/
def chainReader (source : ℕ → Outcome B E) (fs : ℕ → B → B) :
    Fin (d + 1) → ℕ → List (Fin (d + 1) × Option (Except E B)) → Next (Fin (d + 1)) B E
  | ⟨0, _⟩, n, _ => .answer (source n)
  | ⟨k + 1, hk⟩, n, xs => generator ⟨k, by omega⟩ (fs (k + 1)) n xs

theorem chainReader_ask {xs : List (Fin (d + 1) × Option (Except E B))}
    (h : chainReader source fs i n xs = .ask j) : i.val = j.val + 1 := by
  obtain ⟨k, hk⟩ := i
  cases k with
  | zero => cases h
  | succ k => rw [← eq_of_generator h]

def chain (d : ℕ) (source : ℕ → Outcome B E) (fs : ℕ → B → B) : Nesting (Fin (d + 1)) B E where
  reader := chainReader source fs
  own h h' := Fin.ext ((chainReader_ask h).trans (chainReader_ask h').symm)

theorem chain_acyclic : WellFounded (chain d source fs).Inner := by
  refine Subrelation.wf (r := fun j i : Fin (d + 1) => j.val < i.val) ?_ (measure Fin.val).wf
  rintro j i ⟨n, xs, h⟩
  have hval := chainReader_ask h
  omega

/-- What the generators yield when each iterates over a sequence. -/
def chainPull (checks : ℕ → B → Except E Unit) (source : ℕ → Outcome B E) (fs : ℕ → B → B) :
    ℕ → ℕ → Outcome B E
  | 0 => source
  | k + 1 => fun n => match shows (checks k) (chainPull checks source fs k) n with
    | some shown => yields (fs (k + 1)) shown
    | none => .done

theorem chainPull_not_panics (checks : ℕ → B → Except E Unit)
    (hc : ∀ n payload, source n ≠ .panic payload) (k : ℕ) (payload : String) :
    ¬Panics (checks k) (chainPull checks source fs k) payload := by
  refine not_panics (fun n payload => ?_) payload
  cases k with
  | zero => exact hc n payload
  | succ k =>
    simp only [chainPull]
    split
    · unfold yields
      split <;> simp
    · simp

theorem chain_reads (checks : ℕ → B → Except E Unit) (hc : ∀ n payload, source n ≠ .panic payload)
    (i : Fin (d + 1)) (n : ℕ) :
    Reads ((chain d source fs).reader i n) (fun j => shows (checks j) (chainPull checks source fs j))
      (chainPull checks source fs i n) := by
  obtain ⟨k, hk⟩ := i
  cases k with
  | zero => exact ⟨1, rfl⟩
  | succ k =>
    have hcalm : ∀ payload, ¬Panics (checks k) (chainPull checks source fs k) payload :=
      chainPull_not_panics checks hc k
    choose shown hshown using exists_shows hcalm
    have hpull : chainPull checks source fs (k + 1) n = yields (fs (k + 1)) (shown n) := by
      simp only [chainPull, hshown]
    rw [hpull]
    exact reads_generator (⟨k, by omega⟩ : Fin (d + 1))
      (fun j => shows (checks j) (chainPull checks source fs j)) hshown (fs (k + 1)) n

theorem chain_sequential (checks : ℕ → B → Except E Unit)
    (hc : ∀ n payload, source n ≠ .panic payload) (i : Fin (d + 1)) :
    (chain d source fs).SequentialAt (fun i => checks i) (fun i => chainPull checks source fs i) i :=
  fun n _ h => (chain_reads checks hc i n).unique h

end Chain

/-- A generator over a stream, and the stream. -/
abbrev idChain : Nesting (Fin 2) (RecordBatch String ℤ) DataFusionError := chain 1 idPull fun _ => id

abbrev idChainProcess := nested (fun _ : Fin 2 => idSchema) (fun _ => .onDemand) idChain 512

/-- The process with the inner and the outer stream side by side. -/
abbrev IdPair := Budget × Stream (RecordBatch String ℤ) DataFusionError ×
  Stream (RecordBatch String ℤ) DataFusionError

abbrev IdAction := Action (RecordBatch String ℤ) DataFusionError

def IdPair.state (x : IdPair) : Budget × (Fin 2 → Stream (RecordBatch String ℤ) DataFusionError) :=
  (x.1, fun i => if i = 0 then x.2.1 else x.2.2)

/-- What an answer has to be. -/
def idPairAnswers (x : IdPair) (a : Fin 2 × IdAction) : Bool :=
  match a.2 with
  | .answer o =>
    if a.1 = 0 then decide (o = idPull x.2.1.answers.length)
    else decide (readOn (idChain.reader 1 x.2.2.answers.length) (fun j => (x.state.2 j).seen)
      (x.2.2.answers.length + 2) [] = some (.answer o))
  | _ => true

def idPairStep (a : Fin 2 × IdAction) (x : IdPair) : Option IdPair :=
  if idPairAnswers x a then
    (step onDemandIds a.2 (x.1, x.state.2 a.1)).map fun p =>
      if a.1 = 0 then (p.1, p.2, x.2.2) else (p.1, x.2.1, p.2)
  else none

theorem idPairAnswers_sound {x : IdPair} {a : Fin 2 × IdAction} (h : idPairAnswers x a = true) :
    idChain.Answers x.state a ∧ (a.2.NeedsThread (x.state.2 a.1) → ¬Full 512 x.state) := by
  refine ⟨?_, fun _ => not_full (by simp) x.state⟩
  obtain ⟨i, a⟩ := a
  cases a with
  | answer o =>
    by_cases hi : i = 0
    · subst hi
      have ho : o = idPull x.2.1.answers.length := by simpa [idPairAnswers] using h
      subst ho
      exact .inl ⟨1, rfl⟩
    · obtain rfl : i = 1 := by omega
      have ho : readOn (idChain.reader 1 x.2.2.answers.length) (fun j => (x.state.2 j).seen)
          (x.2.2.answers.length + 2) [] = some (.answer o) := by simpa [idPairAnswers] using h
      exact .inl ⟨_, ho⟩
  | _ => trivial

theorem idPairStep_sound {x y : IdPair} {a : Fin 2 × IdAction} (h : idPairStep a x = some y) :
    idChainProcess.step x.state a y.state := by
  unfold idPairStep at h
  split at h
  · rename_i ha
    obtain ⟨p, hp, rfl⟩ := Option.map_eq_some_iff.mp h
    refine ⟨⟨p.1, p.2, hp, ?_⟩, idPairAnswers_sound ha⟩
    by_cases hi : a.1 = 0
    · refine Prod.ext (by simp [IdPair.state, hi]) (funext fun j => ?_)
      by_cases hj : j = 0 <;> simp [IdPair.state, hi, hj]
    · have hone : a.1 = 1 := by omega
      refine Prod.ext (by simp [IdPair.state, hi]) (funext fun j => ?_)
      by_cases hj : j = 0
      · simp [IdPair.state, hone, hj]
      · obtain rfl : j = 1 := by omega
        simp [IdPair.state, hone]
  · cases h

def startUp : List IdAction := [.coordinator true, .coordinator true, .coordinator true, .host]

def request : List IdAction :=
  [.pollNext, .coordinator true, .coordinator true, .coordinator true, .host, .host]

def delivery : List IdAction := [.host, .host, .host, .host, .host, .coordinator true, .receive]

def finish : List IdAction := [.host, .host, .coordinator true, .endOfStream, .host, .host]

/-- The outer stream is read to its end, each of its pulls asking the inner one. -/
def idChainRun : List (Fin 2 × IdAction) :=
  (startUp ++ request).map (Prod.mk 1) ++
    (startUp ++ request ++ .answer (idPull 0) :: delivery).map (Prod.mk 0) ++
    (.answer (idPull 0) :: delivery ++ request).map (Prod.mk 1) ++
    (request ++ .answer .done :: finish).map (Prod.mk 0) ++
    (.answer .done :: finish).map (Prod.mk 1)

/-- The streams of the two closures, when each reads a sequence. -/
abbrev idChainPull (i : Fin 2) : ℕ → Outcome (RecordBatch String ℤ) DataFusionError :=
  chainPull (fun _ => checkBatchSchema idSchema) idPull (fun _ => id) i

theorem idPull_ne_panic (n : ℕ) (payload : String) : idPull n ≠ .panic payload := by
  cases n <;> simp [idPull]

/-- Both streams are read to their ends, and nothing is left to do for them. -/
theorem idChain_run : ∃ p xs, idChainProcess.Run (.initial, fun _ => {}) xs p ∧
    (p.2 1).delivered = [.ok (idBatch [1, 2])] ∧ ∀ i, (p.2 i).coord.over = true ∧
      (p.2 i).closing = 0 ∧ (p.2 i).ending = some .clean ∧ (p.2 i).live = true ∧
      (p.2 i).requested = true := by
  obtain ⟨x, hx, hd, h₀, h₁⟩ : ∃ x, System.replay idPairStep idChainRun (.initial, {}, {}) = some x ∧
      x.2.2.delivered = [.ok (idBatch [1, 2])] ∧
      (x.2.1.coord.over = true ∧ x.2.1.closing = 0 ∧ x.2.1.ending = some .clean ∧ x.2.1.live = true ∧
        x.2.1.requested = true) ∧
      x.2.2.coord.over = true ∧ x.2.2.closing = 0 ∧ x.2.2.ending = some .clean ∧ x.2.2.live = true ∧
        x.2.2.requested = true :=
    ⟨_, rfl, rfl, ⟨rfl, rfl, rfl, rfl, rfl⟩, rfl, rfl, rfl, rfl, rfl⟩
  let pairs : System IdPair (Fin 2 × IdAction) := ⟨fun _ => True, fun x a y => idPairStep a x = some y⟩
  obtain ⟨xs, hrun, -⟩ := System.replay_run (T := pairs) (g := id) (fun _ _ _ h => h) hx
  have hmap : idChainProcess.Run (IdPair.state (.initial, {}, {})) _ x.state :=
    hrun.map IdPair.state fun _ _ _ h => idPairStep_sound h
  have hstart : IdPair.state (.initial, {}, {}) = (.initial, fun _ => {}) := by simp [IdPair.state]
  refine ⟨x.state, _, hstart ▸ hmap, hd, fun i => ?_⟩
  by_cases hi : i = 0
  · simpa only [IdPair.state, hi, if_true] using h₀
  · simpa only [IdPair.state, hi, if_false] using h₁

theorem idChain_start : idChainProcess.start (.initial, fun _ => {}) := ⟨rfl, fun _ => rfl⟩

theorem nested_lossless_idChain : ∃ p, idChainProcess.Reachable p ∧
    (p.2 1).ending = some .clean ∧
      Complete (checkBatchSchema idSchema) (idChainPull 1) (p.2 1).delivered := by
  obtain ⟨p, xs, hrun, -, hall⟩ := idChain_run
  have hp : idChainProcess.Reachable p := ⟨_, xs, idChain_start, hrun⟩
  have hcalm : idChain.Calm p 1 := fun j payload _ => by simp [(hall j).2.2.1]
  have hs : ∀ i, idChain.SequentialAt (fun _ => checkBatchSchema idSchema) idChainPull i :=
    chain_sequential (fun _ => checkBatchSchema idSchema) idPull_ne_panic
  obtain ⟨-, -, hclean, -⟩ := (nested_lossless chain_acyclic).2 idChainPull hs p hp 1 hcalm
  exact ⟨p, hp, (hall 1).2.2.1, hclean (hall 1).2.2.1⟩

end XorqDatafusion.Bridge
