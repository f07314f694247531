import XorqDatafusion.Bridge.Disposal

/-! Thread affinity: a stream calls its closure on one host, and drops it there. -/
namespace XorqDatafusion.Bridge

open Transition

/-- Which host a stream has got: a thread of its own, or whatever thread of the pool is free. -/
inductive HostKind
  | dedicated
  | pooled
deriving DecidableEq

def Host.kind : Host → Option HostKind
  | .unmade => none
  | .affine _ _ _ => some .dedicated
  | .pool _ => some .pooled

/-- Where a host may have its closure dropped. -/
def HostKind.Drops : HostKind → Site → Prop
  | .dedicated, site => site = .pullThread
  | .pooled, site => site ≠ .pullThread

variable {B E : Type} {c : Config B E} {s : Stream B E} {r r' : Round} {host : Host} {k : HostKind}
  {p q : Budget × Stream B E} {a : Action B E}
  {xs : List ((Budget × Stream B E) × Option (Action B E))}

theorem Host.kind_setRound (h : host.round = some r) : (host.setRound r').kind = host.kind := by
  rcases Host.round_eq_some_iff.mp h with ⟨mailbox, done, rfl⟩ | rfl <;> rfl

theorem Host.kind_collect (host : Host) : host.collect.kind = host.kind := by
  cases host with
  | pool task => cases task <;> rfl
  | _ => rfl

theorem CoordStep.kind (h : CoordStep c p q) (hk : p.2.host.kind = some k) :
    q.2.host.kind = some k := by
  cases h with
  | noPermit hc hh | spawn hc hh | spawnFails hc hh => simp [hh, Host.kind] at hk
  | sendInit hc hh | dispatch hc hh | dispatchPool hc hh =>
    rw [hh] at hk
    exact hk
  | @collect b s report hc hr =>
    have hcollect : s.host.collect.kind = some k := by rwa [Host.kind_collect]
    rcases report with ⟨_ | _⟩ | payload <;> exact hcollect
  | _ => exact hk

theorem AbortStep.kind (h : AbortStep p q) (hk : p.2.host.kind = some k) :
    q.2.host.kind = some k := by
  cases h with
  | output hc hh | crashed hc hh =>
    rw [hh] at hk
    exact hk
  | _ => exact hk

theorem HostStep.kind (h : HostStep c p q) (hk : p.2.host.kind = some k) :
    q.2.host.kind = some k := by
  cases h with
  | drain hh hd => exact (Host.kind_setRound hh).trans hk
  | recvInit hh | recvJob hh | hangUp hh | report hh hr | announce hh | leave hh | exit hh | start hh
  | complete hh | discard hh | crash hh =>
    rw [hh] at hk
    exact hk

/-- A stream keeps the host it has got. -/
theorem Step.kind (h : Step c p a q) (hk : p.2.host.kind = some k) : q.2.host.kind = some k := by
  cases h with
  | coordinator h => exact h.kind hk
  | abort _ h => exact h.kind hk
  | host h => exact h.kind hk
  | answer hh hr => exact (Host.kind_setRound hh).trans hk
  | pollNext => rw [Stream.pollNext_frame]; exact hk
  | _ => exact hk

theorem ShapeAt.kind_of_disposing {live : Bool} {v : Verdict} {coord : Coord}
    (hs : ShapeAt live host .disposing v coord) : host.kind = some .pooled := by
  have horphan (ho : Orphan host .disposing v) : host.kind = some .pooled := by
    cases ho
    rfl
  cases coord with
  | finished | panicked | aborted => exact horphan hs.1
  | awaitRound => rcases hs with hs | ⟨report, hs, -⟩ <;> cases hs
  | spawned | spawning | sendInit => simp [ShapeAt] at hs
  | _ => cases hs.1

/-- What a step drops, it drops where the host may. -/
theorem Step.drops_at (hs : Shaped c p.2) (h : Step c p a q) :
    q.2.drops = p.2.drops ∨ ∃ site, q.2.drops = p.2.drops ++ [site] ∧
      ∀ k, p.2.host.kind = some k → k.Drops site := by
  cases h with
  | coordinator h => rw [h.frame]; exact .inl rfl
  | abort _ h =>
    cases h with
    | spawned hc hh => exact .inr ⟨_, rfl, fun k hk => by simp [hh, Host.kind] at hk⟩
    | output hc hh =>
      refine .inr ⟨_, rfl, fun k hk => ?_⟩
      simp only [hh, Host.kind] at hk
      cases hk
      nofun
    | _ => exact .inl rfl
  | host h =>
    cases h with
    | leave hh | discard hh | crash hh =>
      refine .inr ⟨_, rfl, fun k hk => ?_⟩
      simp only [hh, Host.kind] at hk
      cases hk
      simp [HostKind.Drops]
    | drain hh hd => rw [(drainBatches_frame hd).1]; exact .inl rfl
    | _ => exact .inl rfl
  | answer => rw [pullReturned_frame]; exact .inl rfl
  | pollNext => rw [Stream.pollNext_frame]; exact .inl rfl
  | @dispose b s hd =>
    refine .inr ⟨_, rfl, fun k hk => ?_⟩
    have hat := hs.at_coord
    rw [hd] at hat
    cases hk.symm.trans hat.kind_of_disposing
    nofun
  | _ => exact .inl rfl

/-- A host is made for a closure that was not dropped. -/
theorem Step.made (hs : Shaped c p.2) (h : Step c p a q) (hn : p.2.host.kind = none)
    (hk : q.2.host.kind = some k) : q.2.home ≠ .dropped := by
  have hsame (he : q.2.host.kind = p.2.host.kind) : q.2.home ≠ .dropped := by
    rw [he, hn] at hk
    cases hk
  cases h with
  | coordinator h =>
    cases h with
    | noPermit | spawnFails => nofun
    | spawn hc hh => exact hs.not_dropped_unmade hh (by rw [hc]; rfl)
    | sendInit hc hh | dispatch hc hh | dispatchPool hc hh => simp [hh, Host.kind] at hn
    | @collect b s report hc hr =>
      rcases report with ⟨_ | _⟩ | payload <;> exact hsame (Host.kind_collect _)
    | _ => exact hsame rfl
  | abort _ h =>
    cases h with
    | output hc hh | crashed hc hh => simp [hh, Host.kind] at hn
    | _ => exact hsame rfl
  | host h =>
    cases h with
    | drain hh hd => exact hsame (Host.kind_setRound hh)
    | recvInit hh | recvJob hh | hangUp hh | report hh hr | announce hh | leave hh | exit hh
    | start hh | complete hh | discard hh | crash hh => simp [hh, Host.kind] at hn
  | answer hh hr => exact hsame (Host.kind_setRound hh)
  | pollNext => exact hsame (by rw [Stream.pollNext_frame])
  | _ => exact hsame rfl

/-- The closure of a stream is dropped where its host may drop it. -/
theorem reachable_drops_at (h : (component c).alone.Reachable p) :
    ∀ k, p.2.host.kind = some k → ∀ site ∈ p.2.drops, k.Drops site := by
  refine System.reachable_invariant_of_reachable
    (I := fun p => ∀ k, p.2.host.kind = some k → ∀ site ∈ p.2.drops, k.Drops site) ?_ ?_ h
  · intro p hp k hk
    obtain hp : p.2 = {} := hp
    simp [hp, Host.kind] at hk
  · intro p a q hp hs hI k hk
    cases a with
    | none =>
      have hq : q.2 = p.2 := hs
      rw [hq] at hk ⊢
      exact hI k hk
    | some a =>
      have hshaped := reachable_shaped hp
      have hstep := reachable_step hp hs
      cases hp' : p.2.host.kind with
      | none =>
        have hdrops := reachable_drops (hp.step hs)
        rw [if_neg (hstep.made hshaped hp' hk), List.length_eq_zero_iff] at hdrops
        simp [hdrops]
      | some k' =>
        obtain rfl : k' = k := Option.some.inj ((hstep.kind hp').symm.trans hk)
        rcases hstep.drops_at hshaped with hsame | ⟨site, happend, hsite⟩
        · rw [hsame]
          exact hI k' hp'
        · rw [happend]
          intro site' hm
          rcases List.mem_append.mp hm with hm | hm
          · exact hI k' hp' site' hm
          · obtain rfl := List.mem_singleton.mp hm
            exact hsite k' hp'

theorem run_kind (hp : (component c).alone.Reachable p) (h : (component c).alone.Run p xs q)
    (hk : p.2.host.kind = some k) : q.2.host.kind = some k := by
  induction h with
  | refl => exact hk
  | @stepL p t q a xs hs _ ih =>
    refine ih (hp.step hs) ?_
    cases a with
    | none =>
      have ht : t.2 = p.2 := hs
      rwa [ht]
    | some a => exact (reachable_step hp hs).kind hk

theorem Step.kind_of_answer {o : Outcome B E} (h : Step c p (.answer o) q) :
    ∃ k, p.2.host.kind = some k := by
  cases h with
  | answer hh hr =>
    rcases Host.round_eq_some_iff.mp hh with ⟨mailbox, done, hh⟩ | hh
    · exact ⟨.dedicated, by simp [hh, Host.kind]⟩
    · exact ⟨.pooled, by simp [hh, Host.kind]⟩

/-- A thread is started only while a stream has no host, and all its pulls run on the host it gets.
If that is its own thread, the closure is dropped there too, and nowhere else; if it is the pool, the
stream never had a thread of its own. -/
theorem thread_affinity {T α : Type} [DecidableEq T] [ToString T] (schema : Schema T)
    (pull : ℕ → Outcome (RecordBatch T α) DataFusionError) (readAhead : ReadAhead)
    {p₀ p : Budget × Stream (RecordBatch T α) DataFusionError}
    {xs : List (_ × Option (Action (RecordBatch T α) DataFusionError))}
    (h₀ : (spawnChannelStream schema pull readAhead).alone.start p₀)
    (h : (spawnChannelStream schema pull readAhead).alone.Run p₀ xs p) :
    (∀ x ∈ xs, x.1.2.coord = .spawning → x.1.2.host.kind = none) ∧
    (∀ x ∈ xs, ∀ o, x.2 = some (.answer o) →
      ∃ k, x.1.2.host.kind = some k ∧ p.2.host.kind = some k) ∧
    (p.2.host.kind = some .dedicated → ∀ site ∈ p.2.drops, site = .pullThread) ∧
    (p.2.host.kind = some .pooled →
      .pullThread ∉ p.2.drops ∧ ∀ x ∈ xs, x.1.2.host.kind ≠ some .dedicated) := by
  have hrun := Component.alone_run_of_restrict h
  have hp₀ := Component.alone_reachable_of_restrict (.of_start h₀)
  have hdrops := reachable_drops_at (hp₀.run hrun)
  have hkeep {x} (hx : x ∈ xs) {k} (hk : x.1.2.host.kind = some k) : p.2.host.kind = some k := by
    obtain ⟨ys, zs, r, hy, -, hz⟩ := hrun.through hx
    exact run_kind (hp₀.run hy) hz hk
  refine ⟨fun x hx hc => ?_, fun x hx o ho => ?_, hdrops .dedicated, fun hk =>
    ⟨fun hm => ?_, fun x hx hd => ?_⟩⟩
  · obtain ⟨ys, zs, r, hy, -, -⟩ := hrun.through hx
    have hat := (reachable_shaped (hp₀.run hy)).at_coord
    rw [hc] at hat
    rw [hat.1]
    rfl
  · obtain ⟨ys, zs, r, hy, hs, -⟩ := hrun.through hx
    rw [ho] at hs
    obtain ⟨k, hk⟩ := (reachable_step (hp₀.run hy) hs).kind_of_answer
    exact ⟨k, hk, hkeep hx hk⟩
  · exact hdrops .pooled hk _ hm rfl
  · cases hk.symm.trans (hkeep hx hd)

/-- The consumer reads the source to its end on a thread of its own. -/
theorem thread_affinity_idPull :
    ∃ p xs, (spawnChannelStream idSchema idPull .onDemand).alone.Run (.initial, {}) xs p ∧
      p.2.drops = [.pullThread] ∧
      ∀ x ∈ xs, ∀ o, x.2 = some (.answer o) → x.1.2.host.kind = some .dedicated := by
  obtain ⟨p, hrun, hk, hd⟩ : ∃ p, System.replay
      (answeringStep ⟨checkBatchSchema idSchema, .onDemand⟩ idPull) (idRun ++ [.host, .host])
        (.initial, {}) = some p ∧ p.2.host.kind = some .dedicated ∧ p.2.drops = [.pullThread] :=
    ⟨_, rfl, rfl, rfl⟩
  obtain ⟨xs, hr, -⟩ := answering_run hrun
  have h₀ : (spawnChannelStream idSchema idPull .onDemand).alone.start (.initial, {}) := rfl
  refine ⟨p, xs, hr, hd, fun x hx o ho => ?_⟩
  obtain ⟨k, hx', hp⟩ := (thread_affinity _ _ _ h₀ hr).2.1 x hx o ho
  rwa [hk.symm.trans hp]

end XorqDatafusion.Bridge
