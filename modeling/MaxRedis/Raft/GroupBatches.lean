/-
The waiters of SubmitEntry: pushed once, taken once, marked done once.
-/
import MaxRedis.Raft.GroupCommit

namespace MaxRedis.Raft

open LogStorage List

/-! ## Tallies -/

structure Tally where
  pushes : ℕ → ℕ := fun _ => 0
  takes : ℕ → ℕ := fun _ => 0
  marks : ℕ → ℕ := fun _ => 0

def Tally.record (t : Tally) : GroupEvent → Tally
  | .quiet => t
  | .push k => { t with pushes := fun j => t.pushes j + if j = k then 1 else 0 }
  | .take batch => { t with takes := fun j => t.takes j + batch.count j }
  | .mark w => { t with marks := fun j => t.marks j + if j = w then 1 else 0 }

inductive Place where
  | outside
  | queued
  | batch (k : ℕ)
  | marked
  deriving DecidableEq

def Place.tally : Place → ℕ × ℕ × ℕ
  | .outside => (0, 0, 0)
  | .queued => (1, 0, 0)
  | .batch _ => (1, 1, 0)
  | .marked => (1, 1, 1)

lemma Pc.phase_enter {N C : Type} {pc : Pc N C} (h : pc.phase = .enter) : ∃ attempt, pc = .submitEnter attempt := by
  have hafter : ∀ after : After N, after.phase ≠ .enter := by
    intro after
    cases after with
    | _ => exact Phase.noConfusion
  cases pc with
  | submitEnter attempt => exact ⟨attempt, rfl⟩
  | replicateBegin _ after | replicateAlone after => exact absurd h (hafter after)
  | replicate r => exact absurd h (hafter r.after)
  | returned o => cases o with | _ => cases h
  | _ => cases h

def Phase.Fits (j : ℕ) : Phase → Place → Prop
  | .other, _ => False
  | .enter, p => p = .outside
  | .wait, p => p ≠ .outside
  | .take, p => p = .queued
  | .commits _, p => p = .batch j
  | .fulfils _ _, p => p = .batch j ∨ p = .marked
  | .check, p => p = .marked
  | .done _, p => p = .marked

lemma Phase.Fits.of_queued {j : ℕ} {ph : Phase} (h : ph.Fits j .queued) : ph = .wait ∨ ph = .take := by
  cases ph with
  | wait => exact Or.inl rfl
  | take => exact Or.inr rfl
  | fulfils => rcases h with h | h <;> cases h
  | other => exact h.elim
  | _ => cases h

lemma Phase.Fits.of_batch {j k : ℕ} {ph : Phase} (h : ph.Fits j (.batch k)) (hjk : j ≠ k) : ph = .wait := by
  cases ph with
  | wait => rfl
  | commits => exact absurd (Place.batch.inj h).symm hjk
  | fulfils =>
    rcases h with h | h
    · exact absurd (Place.batch.inj h).symm hjk
    · cases h
  | other => exact h.elim
  | _ => cases h

namespace Cluster

variable {N C L : Type} [DecidableEq N] [LogStorage N C L]
variable {s t : Cluster N C L} {a : Action N C L} {j k : ℕ} {f f' : Fiber N C}
  (config : N → ClusterConfig N) (as : List (Action N C L))

def tally (s : Cluster N C L) (t : Tally) : List (Action N C L) → Tally
  | [] => t
  | a :: as => tally (s.step a) (t.record (s.groupEvent a)) as

/-! ## One place for every waiter -/

def held (s : Cluster N C L) (k : ℕ) : List ℕ := ((s.fibers[k]?).map (fun f => f.pc.phase.batch)).getD []

lemma held_eq (hk : s.fibers[k]? = some f) : s.held k = f.pc.phase.batch := by
  unfold held
  rw [hk]
  rfl

lemma held_none (hk : s.fibers[k]? = none) : s.held k = [] := by
  unfold held
  rw [hk]
  rfl

/-- the waiter of call `j` is at place `p` and nowhere else; its tallies, its result and the call's phase are those of
`p` -/
structure WaiterAt (s : Cluster N C L) (c : Tally) (j : ℕ) (f : Fiber N C) (w : RaftWaiter N C) (p : Place) : Prop where
  group : ∀ m, (s.groups m).waiters.count j = if p = .queued ∧ m = f.owner then 1 else 0
  batch : ∀ k, (s.held k).count j = if p = .batch k then 1 else 0
  tally : (c.pushes j, c.takes j, c.marks j) = p.tally
  res : w.res = none ↔ p ≠ .marked
  phase : f.pc.phase.Fits j p

structure Tallied (s : Cluster N C L) (c : Tally) : Prop where
  queued : Queued s
  active : ∀ n, (s.groups n).active = true ↔ (s.groups n).waiters ≠ []
  one : ∀ (i j : ℕ) (f g : Fiber N C), s.fibers[i]? = some f → s.fibers[j]? = some g → f.pc.phase = .take →
    g.pc.phase = .take → f.owner = g.owner → i = j
  idle : ∀ (j : ℕ) (f : Fiber N C), s.fibers[j]? = some f → f.waiter = none →
    f.pc.phase = .other ∨ ∃ r, f.pc.phase = .done r
  fresh : ∀ j, s.fibers[j]? = none → c.pushes j = 0 ∧ c.takes j = 0 ∧ c.marks j = 0
  stands : ∀ (j : ℕ) (f : Fiber N C) (w : RaftWaiter N C), s.fibers[j]? = some f → f.waiter = some w →
    ∃ p, WaiterAt s c j f w p

section Facts
variable {c : Tally} {w : RaftWaiter N C} {p : Place}

section
variable (h : Tallied s c)
include h

section
variable (hj : s.fibers[j]? = some f)
include hj

lemma Tallied.waiter (hp : f.pc.phase ≠ .other)
    (hd : ∀ r, f.pc.phase ≠ .done r) : ∃ w p, f.waiter = some w ∧ WaiterAt s c j f w p := by
  cases hw : f.waiter with
  | none =>
    rcases h.idle j f hj hw with ho | ⟨r, hr⟩
    · exact absurd ho hp
    · exact absurd hr (hd r)
  | some w =>
    obtain ⟨p, hs⟩ := h.stands j f w hj hw
    exact ⟨w, p, rfl, hs⟩

lemma Tallied.takes (hp : f.pc.phase = .take) : ∃ w, f.waiter = some w ∧ WaiterAt s c j f w .queued := by
  obtain ⟨w, p, hw, hs⟩ :=
    h.waiter hj (by rw [hp]; exact Phase.noConfusion) (by intro r; rw [hp]; exact Phase.noConfusion)
  have hfit := hs.phase
  rw [hp] at hfit
  obtain rfl : p = .queued := hfit
  exact ⟨w, hw, hs⟩

lemma Tallied.takes_active (hp : f.pc.phase = .take) : (s.groups f.owner).active = true := by
  obtain ⟨w, -, hs⟩ := h.takes hj hp
  have hcount := hs.group f.owner
  rw [if_pos ⟨rfl, rfl⟩] at hcount
  refine (h.active f.owner).2 (fun hnil => ?_)
  rw [hnil] at hcount
  cases hcount

lemma Tallied.checked (hp : f.pc.phase = .check) (hw : f.waiter = some w) : w.res ≠ none := by
  obtain ⟨p, hs⟩ := h.stands j f w hj hw
  have hfit := hs.phase
  rw [hp] at hfit
  exact fun hnone => hs.res.1 hnone hfit

end

lemma Tallied.outside (hn : s.fibers[j]? = none) :
    (∀ m, (s.groups m).waiters.count j = 0) ∧ ∀ k, (s.held k).count j = 0 := by
  refine ⟨fun m => count_eq_zero.2 (fun hm => ?_), fun k => count_eq_zero.2 (fun hm => ?_)⟩
  · obtain ⟨f, hf, -⟩ := h.queued.waits m j hm
    cases hn.symm.trans hf
  · cases hk : s.fibers[k]? with
    | none => rw [held_none hk] at hm; cases hm
    | some g =>
      rw [held_eq hk] at hm
      obtain ⟨f, hf, -⟩ := h.queued.batches k g hk j hm
      cases hn.symm.trans hf

lemma Tallied.batch_owner {g : Fiber N C} (hj : s.fibers[j]? = some f) (hk : s.fibers[k]? = some g)
    (hm : j ∈ g.pc.phase.batch) : f.owner = g.owner := by
  obtain ⟨f', hf', ho⟩ := h.queued.batches k g hk j hm
  rw [Option.some.inj (hj.symm.trans hf')]
  exact ho

end

end Facts

/-! ### Steps that handle no waiter -/

section Quiet
variable {c : Tally} {w : RaftWaiter N C} {p : Place}

lemma QuietPhase.fits {q : Phase} (hq : QuietPhase s a f q) (hs : WaiterAt s c j f w p) (hw : f.waiter = some w)
    (hj : s.fibers[j]? = some f) : q.Fits j p := by
  have hfit := hs.phase
  have hmarked : ∀ {w' : RaftWaiter N C} {r : ApplyResult}, f.waiter = some w' → w'.res = some r → p = .marked := by
    intro w' r hw' hr
    obtain rfl := Option.some.inj (hw.symm.trans hw')
    by_contra hne
    rw [hs.res.2 hne] at hr
    cases hr
  cases hq with
  | stay hp => rw [hp] at hfit; exact hfit
  | count _ _ hp => rw [hp] at hfit; exact Or.inl hfit
  | checks _ hp =>
    -- its own waiter has left the batch, so it is marked
    rw [hp] at hfit
    rcases hfit with rfl | hm
    · have hcount := hs.batch j
      rw [held_eq hj, hp, if_pos rfl] at hcount
      cases hcount
    · exact hm
  | answer _ _ _ hw' hr => exact hmarked hw' hr
  | unanswered _ hp hw' hr =>
    obtain rfl := Option.some.inj (hw.symm.trans hw')
    rw [hp] at hfit
    exact absurd hfit (hs.res.1 hr)

lemma Tallied.quiet (h : Tallied s c) (hq : Queued t) (hg : t.groups = s.groups)
    (hold : ∀ (j : ℕ) (f : Fiber N C), s.fibers[j]? = some f → ∃ f' : Fiber N C, t.fibers[j]? = some f' ∧
      f'.owner = f.owner ∧ f'.waiter = f.waiter ∧ QuietPhase s a f f'.pc.phase)
    (hnew : ∀ (j : ℕ) (f' : Fiber N C), s.fibers[j]? = none → t.fibers[j]? = some f' → Fresh f') : Tallied t c := by
  -- no batch has changed
  have hheld : ∀ k, t.held k = s.held k := by
    intro k
    cases hk : s.fibers[k]? with
    | none =>
      rw [held_none hk]
      cases hk' : t.fibers[k]? with
      | none => exact held_none hk'
      | some f' => rw [held_eq hk', (hnew k f' hk hk').batch]
    | some f =>
      obtain ⟨f', hk', -, -, hphase⟩ := hold k f hk
      rw [held_eq hk', held_eq hk]
      exact hphase.batch
  have hback : ∀ {j : ℕ} {f' : Fiber N C}, t.fibers[j]? = some f' → (s.fibers[j]? = none ∧ Fresh f') ∨
      ∃ f, s.fibers[j]? = some f ∧ f'.owner = f.owner ∧ f'.waiter = f.waiter ∧ QuietPhase s a f f'.pc.phase := by
    intro j f' hj
    cases hs : s.fibers[j]? with
    | none => exact Or.inl ⟨rfl, hnew j f' hs hj⟩
    | some f =>
      obtain ⟨f'', hf'', hrest⟩ := hold j f hs
      obtain rfl := Option.some.inj (hf''.symm.trans hj)
      exact Or.inr ⟨f, rfl, hrest⟩
  have htake : ∀ {j : ℕ} {f' : Fiber N C}, t.fibers[j]? = some f' → f'.pc.phase = .take →
      ∃ f, s.fibers[j]? = some f ∧ f'.owner = f.owner ∧ f.pc.phase = .take := by
    intro j f' hj hp
    rcases hback hj with ⟨-, hfresh⟩ | ⟨f, hf, ho, -, hq⟩
    · rcases hfresh.phase with hp' | ⟨r, hp'⟩ | hp'
      all_goals rw [hp'] at hp; cases hp
    · refine ⟨f, hf, ho, ?_⟩
      rw [hp] at hq
      cases hq with
      | stay hp => exact hp
      | unanswered _ hp hw hr => exact absurd hr (h.checked hf hp hw)
  refine ⟨hq, fun n => by rw [hg]; exact h.active n, ?_, ?_, ?_, ?_⟩
  · intro i j f' g' hi hj hpi hpj ho
    obtain ⟨f, hf, hof, hpf⟩ := htake hi hpi
    obtain ⟨g, hg', hog, hpg⟩ := htake hj hpj
    exact h.one i j f g hf hg' hpf hpg (by rw [← hof, ho, hog])
  · intro j f' hj hw
    rcases hback hj with ⟨-, hfresh⟩ | ⟨f, hf, ho, hwf, hq⟩
    · cases hfresh with
      | other _ hp => exact hp
      | submits _ hw' => rw [hw] at hw'; cases hw'
    · rw [hw] at hwf
      have hidle := h.idle j f hf hwf.symm
      generalize f'.pc.phase = q at hq
      cases hq with
      | stay hp => rw [hp] at hidle; exact hidle
      | count _ _ hp | checks _ hp => rw [hp] at hidle; rcases hidle with hi | ⟨r, hi⟩ <;> cases hi
      | answer _ _ _ hw' | unanswered _ _ hw' => rw [← hwf] at hw'; cases hw'
  · intro j hn
    refine h.fresh j ?_
    cases hs : s.fibers[j]? with
    | none => rfl
    | some f =>
      obtain ⟨f', hf', -⟩ := hold j f hs
      cases hn.symm.trans hf'
  · intro j f' w hj hw
    rcases hback hj with ⟨hn, hfresh⟩ | ⟨f, hf, ho, hwf, hq⟩
    · -- a call that has just passed the leader check
      cases hfresh with
      | other hnone => rw [hnone] at hw; cases hw
      | submits _ hw' hr hp =>
        obtain rfl := Option.some.inj (hw.symm.trans hw')
        obtain ⟨hgroup, hbatch⟩ := h.outside hn
        obtain ⟨h1, h2, h3⟩ := h.fresh j hn
        refine ⟨.outside, fun m => ?_, fun k => ?_, ?_, ⟨fun _ => Place.noConfusion, fun _ => hr⟩, by rw [hp]; rfl⟩
        · rw [hg, hgroup m]; rfl
        · rw [hheld, hbatch k]; rfl
        · rw [h1, h2, h3]; rfl
    · rw [hw] at hwf
      obtain ⟨p, hs⟩ := h.stands j f w hf hwf.symm
      refine ⟨p, fun m => ?_, fun k => ?_, hs.tally, hs.res, hq.fits hs hwf.symm hf⟩
      · rw [hg, ho]; exact hs.group m
      · rw [hheld]; exact hs.batch k

end Quiet

/-! ### Steps that handle one -/

section Moves
variable {c : Tally} {n : N}

lemma set_none (hf : t.fibers = s.fibers.set k f') (hj : t.fibers[j]? = none) : s.fibers[j]? = none := by
  rw [getElem?_eq_none_iff] at hj ⊢
  rw [hf, length_set] at hj
  exact hj

lemma held_set (hk : s.fibers[k]? = some f) (hf : t.fibers = s.fibers.set k f') (i : ℕ) :
    t.held i = if i = k then f'.pc.phase.batch else s.held i := by
  unfold held
  rw [hf]
  by_cases hki : k = i
  · subst hki
    rw [getElem?_set_self (List.getElem?_eq_some_iff.1 hk).1, if_pos rfl]
    rfl
  · rw [getElem?_set_ne hki, if_neg (Ne.symm hki)]

section Push
variable {x : Fiber N C} {v : RaftWaiter N C} {q : Place}
  (hgroup : ∀ (j : ℕ) (m : N), (t.groups m).waiters.count j =
    (s.groups m).waiters.count j + if j = k ∧ m = n then 1 else 0)
  (hheld : ∀ i, t.held i = s.held i)
include hgroup hheld

lemma WaiterAt.pushed (hs : WaiterAt s c k f v .outside) (hn : f.owner = n) (ho : x.owner = f.owner)
    (hfit : x.pc.phase.Fits k .queued) : WaiterAt t (c.record (.push k)) k x v .queued := by
  have htally := hs.tally
  simp only [Place.tally, Prod.mk.injEq] at htally
  refine ⟨fun m => ?_, fun i => ?_, ?_, ⟨fun _ => Place.noConfusion, fun _ => hs.res.2 Place.noConfusion⟩, hfit⟩
  · rw [hgroup, hs.group, ho, hn]; simp
  · rw [hheld, hs.batch]; rfl
  · show (c.pushes k + (if k = k then 1 else 0), c.takes k, c.marks k) = (1, 0, 0)
    rw [if_pos rfl, htally.1, htally.2.1, htally.2.2]

lemma WaiterAt.unpushed (hs : WaiterAt s c j x v q) (hjk : j ≠ k) : WaiterAt t (c.record (.push k)) j x v q := by
  refine ⟨fun m => ?_, fun i => ?_, ?_, hs.res, hs.phase⟩
  · have hother : ¬ (j = k ∧ m = n) := fun h => hjk h.1
    rw [hgroup, hs.group, if_neg hother, Nat.add_zero]
  · rw [hheld]; exact hs.batch i
  · show (c.pushes j + (if j = k then 1 else 0), c.takes j, c.marks j) = q.tally
    rw [if_neg hjk]
    exact hs.tally

end Push

lemma Tallied.push (h : Tallied s c) (hq : Queued t) (hk : s.fibers[k]? = some f) (hp : f.pc.phase = .enter)
    (hg : t.groups = fun m => if m = f.owner then ⟨true, (s.groups f.owner).waiters ++ [k]⟩ else s.groups m)
    (hf : t.fibers = s.fibers.set k f') (ho : f'.owner = f.owner) (hw : f'.waiter = f.waiter)
    (hp' : f'.pc.phase = .wait ∨ (s.groups f.owner).active = false ∧ f'.pc.phase = .take) :
    Tallied t (c.record (.push k)) := by
  obtain ⟨w, p, hwf, hs⟩ :=
    h.waiter hk (by rw [hp]; exact Phase.noConfusion) (by intro r; rw [hp]; exact Phase.noConfusion)
  have hfit := hs.phase
  rw [hp] at hfit
  obtain rfl : p = .outside := hfit
  have hheld : ∀ i, t.held i = s.held i := by
    intro i
    rw [held_set hk hf]
    split_ifs with hik
    · subst hik
      rw [held_eq hk, hp]
      rcases hp' with hp' | ⟨-, hp'⟩
      · rw [hp']; rfl
      · rw [hp']; rfl
    · rfl
  have hgroup : ∀ (j : ℕ) (m : N), (t.groups m).waiters.count j =
      (s.groups m).waiters.count j + if j = k ∧ m = f.owner then 1 else 0 := by
    intro j m
    rw [hg]
    dsimp only
    by_cases hm : m = f.owner
    · rw [hm]
      by_cases hjk : j = k
      · simp [hjk]
      · simp [hjk, Ne.symm hjk]
    · rw [if_neg hm, if_neg (fun h => hm h.2), Nat.add_zero]
  refine ⟨hq, fun n => ?_, ?_, ?_, ?_, ?_⟩
  · rw [hg]
    dsimp only
    split_ifs
    · simp
    · exact h.active n
  · intro i j x y hi hj hpi hpj hown
    rcases set_back hk hf hi with ⟨rfl, rfl⟩ | ⟨hik, hi⟩ <;> rcases set_back hk hf hj with ⟨rfl, rfl⟩ | ⟨hjk, hj⟩
    · rfl
    · -- the group was not active, so nobody was to take it
      rcases hp' with hw' | ⟨hact, -⟩
      · rw [hw'] at hpi; cases hpi
      · rw [← ho, hown, h.takes_active hj hpj] at hact; cases hact
    · rcases hp' with hw' | ⟨hact, -⟩
      · rw [hw'] at hpj; cases hpj
      · rw [← ho, ← hown, h.takes_active hi hpi] at hact; cases hact
    · exact h.one i j x y hi hj hpi hpj hown
  · intro j x hj hx
    rcases set_back hk hf hj with ⟨rfl, rfl⟩ | ⟨-, hj⟩
    · rw [hw, hwf] at hx; cases hx
    · exact h.idle j x hj hx
  · intro j hj
    have hn := set_none hf hj
    have hjk : j ≠ k := by
      rintro rfl
      cases hk.symm.trans hn
    obtain ⟨h1, h2, h3⟩ := h.fresh j hn
    refine ⟨?_, h2, h3⟩
    show c.pushes j + (if j = k then 1 else 0) = 0
    rw [h1, if_neg hjk]
  · intro j x v hj hv
    rcases set_back hk hf hj with ⟨rfl, rfl⟩ | ⟨hjk, hj⟩
    · obtain rfl : v = w := Option.some.inj (hv.symm.trans (hw.trans hwf))
      refine ⟨.queued, hs.pushed hgroup hheld rfl ho ?_⟩
      rcases hp' with hw' | ⟨-, hw'⟩
      · rw [hw']; exact Place.noConfusion
      · rw [hw']; exact rfl
    · obtain ⟨q, hx⟩ := h.stands j x v hj hv
      exact ⟨q, hx.unpushed hgroup hheld hjk⟩

section Take
variable {x y : Fiber N C} {v : RaftWaiter N C} {q : Place}
  (hg : t.groups = fun m => if m = n then {} else s.groups m)
  (hheld : ∀ i, t.held i = if i = k then (s.groups n).waiters else s.held i)
include hg hheld

lemma WaiterAt.taken (hs : WaiterAt s c j y v .queued) (hown : n = y.owner) (hfit : x.pc.phase.Fits j (.batch k)) :
    WaiterAt t (c.record (.take (s.groups n).waiters)) j x v (.batch k) := by
  have hcount : (s.groups n).waiters.count j = 1 := by rw [hs.group, if_pos ⟨rfl, hown⟩]
  have htally := hs.tally
  simp only [Place.tally, Prod.mk.injEq] at htally
  refine ⟨fun m => ?_, fun i => ?_, ?_, ⟨fun _ => Place.noConfusion, fun _ => hs.res.2 Place.noConfusion⟩, hfit⟩
  · rw [hg]
    dsimp only
    split_ifs with hm hb
    · cases hb.1
    · rfl
    · cases ‹_ ∧ _›.1
    · rw [hs.group, if_neg (fun h => hm (h.2.trans hown.symm))]
  · rw [hheld]
    by_cases hik : i = k
    · rw [if_pos hik, hcount, if_pos (by rw [hik])]
    · rw [if_neg hik, hs.batch, if_neg (by simp), if_neg (by simpa using Ne.symm hik)]
  · show (c.pushes j, c.takes j + (s.groups n).waiters.count j, c.marks j) = (1, 1, 0)
    rw [hcount, htally.1, htally.2.1, htally.2.2]

lemma WaiterAt.untaken (hs : WaiterAt s c j x v q) (hin : ¬ (q = .queued ∧ n = x.owner)) (hbefore : s.held k = []) :
    WaiterAt t (c.record (.take (s.groups n).waiters)) j x v q := by
  have hcount : (s.groups n).waiters.count j = 0 := by rw [hs.group, if_neg hin]
  refine ⟨fun m => ?_, fun i => ?_, ?_, hs.res, hs.phase⟩
  · rw [hg]
    dsimp only
    by_cases hm : m = n
    · rw [if_pos hm, if_neg (by rw [hm]; exact hin)]; rfl
    · rw [if_neg hm]; exact hs.group m
  · rw [hheld]
    by_cases hik : i = k
    · have hb := hs.batch k
      rw [hbefore] at hb
      rw [if_pos hik, hcount, hik]
      exact hb
    · rw [if_neg hik]; exact hs.batch i
  · show (c.pushes j, c.takes j + (s.groups n).waiters.count j, c.marks j) = q.tally
    rw [hcount]
    exact hs.tally

end Take

lemma Tallied.take (h : Tallied s c) (hq : Queued t) (hk : s.fibers[k]? = some f) (hp : f.pc.phase = .take)
    (hg : t.groups = fun m => if m = f.owner then {} else s.groups m)
    (hf : t.fibers = s.fibers.set k f') (ho : f'.owner = f.owner) (hw : f'.waiter = f.waiter)
    (hp' : f'.pc.phase = .commits (s.groups f.owner).waiters) :
    Tallied t (c.record (.take (s.groups f.owner).waiters)) := by
  obtain ⟨w, hwf, hsk⟩ := h.takes hk hp
  have hheld : ∀ i, t.held i = if i = k then (s.groups f.owner).waiters else s.held i := by
    intro i
    rw [held_set hk hf, hp']
    rfl
  have hbefore : s.held k = [] := by rw [held_eq hk, hp]; rfl
  have hnotTake : f'.pc.phase ≠ .take := by rw [hp']; exact Phase.noConfusion
  refine ⟨hq, fun n => ?_, ?_, ?_, ?_, ?_⟩
  · rw [hg]
    dsimp only
    split_ifs
    · simp
    · exact h.active n
  · intro i j x y hi hj hpi hpj hown
    rcases set_back hk hf hi with ⟨rfl, rfl⟩ | ⟨-, hi⟩
    · exact absurd hpi hnotTake
    rcases set_back hk hf hj with ⟨rfl, rfl⟩ | ⟨-, hj⟩
    · exact absurd hpj hnotTake
    exact h.one i j x y hi hj hpi hpj hown
  · intro j x hj hx
    rcases set_back hk hf hj with ⟨rfl, rfl⟩ | ⟨-, hj⟩
    · rw [hw, hwf] at hx; cases hx
    · exact h.idle j x hj hx
  · intro j hj
    have hn := set_none hf hj
    obtain ⟨h1, h2, h3⟩ := h.fresh j hn
    refine ⟨h1, ?_, h3⟩
    show c.takes j + (s.groups f.owner).waiters.count j = 0
    rw [h2, (h.outside hn).1]
  · intro j x v hj hv
    rcases set_back hk hf hj with ⟨rfl, rfl⟩ | ⟨hjk, hj⟩
    · obtain rfl : v = w := Option.some.inj (hv.symm.trans (hw.trans hwf))
      exact ⟨.batch j, hsk.taken hg hheld rfl (by rw [hp']; exact rfl)⟩
    obtain ⟨q, hs⟩ := h.stands j x v hj hv
    by_cases hin : q = .queued ∧ f.owner = x.owner
    · obtain ⟨rfl, hown⟩ := hin
      refine ⟨.batch k, hs.taken hg hheld hown ?_⟩
      -- a call that has joined the group waits: only one is to take it
      rcases hs.phase.of_queued with hwait | htake
      · rw [hwait]; exact Place.noConfusion
      · exact absurd (h.one j k x f hj hk htake hp hown.symm) hjk
    · exact ⟨q, hs.untaken hg hheld hin hbefore⟩

/-- what marking the waiter of call `w` does to the calls: it leaves the batch of call `k`, and its result is set -/
structure Marks (s t : Cluster N C L) (k w : ℕ) (rest : List ℕ) (applied : ℕ) : Prop where
  groups : t.groups = s.groups
  length : t.fibers.length = s.fibers.length
  old : ∀ (j : ℕ) (g : Fiber N C), s.fibers[j]? = some g → ∃ g' : Fiber N C, t.fibers[j]? = some g' ∧
    g'.owner = g.owner ∧ g'.pc.phase = (if j = k then .fulfils rest applied else g.pc.phase) ∧
    g'.waiter =
      if j = w then g.waiter.map (fun w => { w with res := some (waiterResult w.idx applied) }) else g.waiter

section Mark
variable {w applied : ℕ} {rest : List ℕ} (hm : Marks s t k w rest applied)
include hm

lemma Marks.back {g' : Fiber N C} (hj : t.fibers[j]? = some g') : ∃ g, s.fibers[j]? = some g ∧ g'.owner = g.owner ∧
    g'.pc.phase = (if j = k then .fulfils rest applied else g.pc.phase) ∧
    g'.waiter =
      if j = w then g.waiter.map (fun w => { w with res := some (waiterResult w.idx applied) }) else g.waiter := by
  have hlt : j < s.fibers.length := by rw [← hm.length]; exact (List.getElem?_eq_some_iff.1 hj).1
  obtain ⟨g'', hg'', hrest⟩ := hm.old j _ (getElem?_eq_getElem hlt)
  obtain rfl := Option.some.inj (hg''.symm.trans hj)
  exact ⟨_, getElem?_eq_getElem hlt, hrest⟩

lemma Marks.absent (hj : t.fibers[j]? = none) : s.fibers[j]? = none := by
  rw [getElem?_eq_none_iff] at hj ⊢
  rw [← hm.length]
  exact hj

lemma Marks.held (hk : s.fibers[k]? = some f) (i : ℕ) : t.held i = if i = k then rest else s.held i := by
  cases hi : t.fibers[i]? with
  | none =>
    have hnone := hm.absent hi
    have hne : i ≠ k := by
      rintro rfl
      cases hk.symm.trans hnone
    rw [held_none hi, if_neg hne, held_none hnone]
  | some =>
    obtain ⟨g, hg, -, hph, -⟩ := hm.back hi
    rw [held_eq hi, hph, held_eq hg]
    split_ifs <;> rfl

variable {x y : Fiber N C} {v v' : RaftWaiter N C} {q : Place}

lemma WaiterAt.marked (hk : s.fibers[k]? = some f) (hs : WaiterAt s c w y v (.batch k)) (hrest : rest.count w = 0)
    (hres : v'.res ≠ none) (hph : x.pc.phase = if w = k then .fulfils rest applied else y.pc.phase) :
    WaiterAt t (c.record (.mark w)) w x v' .marked := by
  have htally := hs.tally
  simp only [Place.tally, Prod.mk.injEq] at htally
  refine ⟨fun m => ?_, fun i => ?_, ?_, ⟨fun hnone => absurd hnone hres, fun hne => absurd rfl hne⟩, ?_⟩
  · rw [hm.groups, hs.group]; rfl
  · rw [hm.held hk]
    by_cases hik : i = k
    · rw [if_pos hik, hrest]; rfl
    · rw [if_neg hik, hs.batch, if_neg (by simpa using Ne.symm hik)]; rfl
  · show (c.pushes w, c.takes w, c.marks w + (if w = w then 1 else 0)) = (1, 1, 1)
    rw [if_pos rfl, htally.1, htally.2.1, htally.2.2]
  · rw [hph]
    split_ifs with hwk
    · exact Or.inr rfl
    · -- another call's batch: this call waits
      rw [hs.phase.of_batch hwk]
      exact Place.noConfusion

lemma WaiterAt.unmarked (hk : s.fibers[k]? = some f) (hs : WaiterAt s c j y v q) (hjw : j ≠ w)
    (hhead : s.held k = w :: rest) (howner : x.owner = y.owner) (hfit : x.pc.phase.Fits j q) :
    WaiterAt t (c.record (.mark w)) j x v q := by
  refine ⟨fun m => ?_, fun i => ?_, ?_, hs.res, hfit⟩
  · rw [hm.groups, howner]; exact hs.group m
  · rw [hm.held hk]
    by_cases hik : i = k
    · rw [if_pos hik, hik, ← hs.batch k, hhead, count_cons_of_ne (Ne.symm hjw)]
    · rw [if_neg hik]; exact hs.batch i
  · show (c.pushes j, c.takes j, c.marks j + (if j = w then 1 else 0)) = q.tally
    rw [if_neg hjw]
    exact hs.tally

lemma Tallied.mark (h : Tallied s c) (hq : Queued t) (hk : s.fibers[k]? = some f)
    (hp : f.pc.phase = .fulfils (w :: rest) applied) : Tallied t (c.record (.mark w)) := by
  have hhead : s.held k = w :: rest := by rw [held_eq hk, hp]; rfl
  have htake : ∀ {j : ℕ} {g g' : Fiber N C}, g'.pc.phase = (if j = k then .fulfils rest applied else g.pc.phase) →
      g'.pc.phase = .take → g.pc.phase = .take := by
    intro j g g' hph hp'
    rw [hp'] at hph
    split_ifs at hph
    exact hph.symm
  refine ⟨hq, fun n => by rw [hm.groups]; exact h.active n, ?_, ?_, ?_, ?_⟩
  · intro i j x y hi hj hpi hpj hown
    obtain ⟨x0, hx0, hox, hpx, -⟩ := hm.back hi
    obtain ⟨y0, hy0, hoy, hpy, -⟩ := hm.back hj
    exact h.one i j x0 y0 hx0 hy0 (htake hpx hpi) (htake hpy hpj) (by rw [← hox, hown, hoy])
  · intro j x hj hx
    obtain ⟨y, hy, -, hph, hwy⟩ := hm.back hj
    have hnone : y.waiter = none := by
      rw [hx] at hwy
      split_ifs at hwy
      · exact Option.map_eq_none_iff.1 hwy.symm
      · exact hwy.symm
    have hidle := h.idle j y hy hnone
    have hne : j ≠ k := by
      rintro rfl
      obtain rfl := Option.some.inj (hk.symm.trans hy)
      rw [hp] at hidle
      rcases hidle with hi | ⟨r, hi⟩ <;> cases hi
    rw [hph, if_neg hne]
    exact hidle
  · intro j hj
    have hn := hm.absent hj
    have hne : j ≠ w := by
      rintro rfl
      have := (h.outside hn).2 k
      rw [hhead] at this
      simp at this
    obtain ⟨h1, h2, h3⟩ := h.fresh j hn
    refine ⟨h1, h2, ?_⟩
    show c.marks j + (if j = w then 1 else 0) = 0
    rw [h3, if_neg hne]
  · intro j x v hj hv
    obtain ⟨y, hy, howner, hph, hwy⟩ := hm.back hj
    by_cases hjw : j = w
    · subst hjw
      rw [if_pos rfl, hv] at hwy
      obtain ⟨v0, hv0, rfl⟩ := Option.map_eq_some_iff.1 hwy.symm
      obtain ⟨q, hs⟩ := h.stands j y v0 hy hv0
      -- it was in this batch, once
      have hb := hs.batch k
      rw [hhead, count_cons_self] at hb
      obtain rfl : q = .batch k := by
        by_contra hne
        rw [if_neg hne] at hb
        cases hb
      rw [if_pos rfl] at hb
      exact ⟨.marked, hs.marked hm hk (by omega) (by simp) hph⟩
    · rw [if_neg hjw, hv] at hwy
      obtain ⟨q, hs⟩ := h.stands j y v hy hwy.symm
      refine ⟨q, hs.unmarked hm hk hjw hhead howner ?_⟩
      have hfit := hs.phase
      rw [hph]
      split_ifs with hjk
      · subst hjk
        obtain rfl := Option.some.inj (hk.symm.trans hy)
        rw [hp] at hfit
        exact hfit
      · exact hfit

end Mark

lemma Tallied.reset (h : Tallied s c) (hq : Queued t) (hg : t.groups = fun m => if m = n then {} else s.groups m)
    (hf : t.fibers = s.fibers.map (fun f => if f.owner = n then { owner := n, pc := .returned .done } else f)) :
    Tallied t c := by
  have hback : ∀ {j : ℕ} {g : Fiber N C}, t.fibers[j]? = some g →
      (g.waiter = none ∧ g.pc.phase = .other) ∨ (g.owner ≠ n ∧ s.fibers[j]? = some g) := by
    intro j g hj
    rw [hf, getElem?_map] at hj
    obtain ⟨x, hx, rfl⟩ := Option.map_eq_some_iff.1 hj
    split_ifs with hown
    · exact Or.inl ⟨rfl, rfl⟩
    · exact Or.inr ⟨hown, hx⟩
  refine ⟨hq, fun m => ?_, ?_, ?_, ?_, ?_⟩
  · rw [hg]
    dsimp only
    split_ifs
    · simp
    · exact h.active m
  · intro i j x y hi hj hpi hpj hown
    rcases hback hi with ⟨-, hpx⟩ | ⟨-, hi⟩
    · rw [hpx] at hpi; cases hpi
    rcases hback hj with ⟨-, hpy⟩ | ⟨-, hj⟩
    · rw [hpy] at hpj; cases hpj
    exact h.one i j x y hi hj hpi hpj hown
  · intro j x hj hx
    rcases hback hj with ⟨-, hpx⟩ | ⟨-, hj⟩
    · exact Or.inl hpx
    · exact h.idle j x hj hx
  · intro j hj
    rw [hf, getElem?_map] at hj
    exact h.fresh j (Option.map_eq_none_iff.1 hj)
  · intro j x v hj hv
    rcases hback hj with ⟨hnone, -⟩ | ⟨hown, hjs⟩
    · rw [hnone] at hv; cases hv
    obtain ⟨q, hs⟩ := h.stands j x v hjs hv
    refine ⟨q, fun m => ?_, fun i => ?_, hs.tally, hs.res, hs.phase⟩
    · rw [hg]
      dsimp only
      by_cases hm : m = n
      · rw [if_pos hm, if_neg (fun h => hown (h.2.symm.trans hm))]; rfl
      · rw [if_neg hm]; exact hs.group m
    · -- the batches of the node held waiters of the node only
      rw [← hs.batch i]
      cases hi : s.fibers[i]? with
      | none =>
        have hi' : t.fibers[i]? = none := by rw [hf, getElem?_map, hi]; rfl
        rw [held_none hi', held_none hi]
      | some g =>
        by_cases hgn : g.owner = n
        · have hi' : t.fibers[i]? = some { owner := n, pc := .returned .done } := by
            rw [hf, getElem?_map, hi, Option.map_some, if_pos hgn]
          have hzero : (s.held i).count j = 0 := by
            refine count_eq_zero.2 (fun hm => hown ?_)
            rw [held_eq hi] at hm
            rw [h.batch_owner hjs hi hm, hgn]
          rw [hzero, held_eq hi']
          rfl
        · have hi' : t.fibers[i]? = some g := by rw [hf, getElem?_map, hi, Option.map_some, if_neg hgn]
          rw [held_eq hi', held_eq hi]

end Moves

/-! ## Runs -/

lemma tallied_init : Tallied (init config : Cluster N C L) {} := by
  have hnone : ∀ (j : ℕ) (f : Fiber N C), (init config : Cluster N C L).fibers[j]? ≠ some f := by
    intro j f h
    simp [init] at h
  refine ⟨queued_init config, fun n => by simp [init], fun i j f g h => absurd h (hnone i f),
    fun j f h => absurd h (hnone j f), fun j _ => ⟨rfl, rfl, rfl⟩, fun j f w h => absurd h (hnone j f)⟩

lemma step_tallied {c : Tally} (h : Tallied s c) (a : Action N C L) :
    Tallied (s.step a) (c.record (s.groupEvent a)) := by
  have hq := step_queued h.queued a
  have hmove := step_groupMove s a
  generalize s.groupEvent a = e at hmove
  cases hmove with
  | quiet hg hold hnew => exact h.quiet hq hg hold hnew
  | push _ _ _ hk hp hg hf ho hw hp' => exact h.push hq hk hp hg hf ho hw hp'
  | take _ _ _ hk hp hg hf ho hw hp' => exact h.take hq hk hp hg hf ho hw hp'
  | mark _ _ _ _ _ hk hp hg hlen hold => exact h.mark ⟨hg, hlen, hold⟩ hq hk hp
  | reset _ hg hf => exact h.reset hq hg hf

lemma run_tallied {s : Cluster N C L} {c : Tally} (h : Tallied s c) :
    Tallied (run s as) (tally s c as) := by
  induction as generalizing s c with
  | nil => exact h
  | cons a _ ih => exact ih (step_tallied h a)

/-- **Group commit loses and duplicates nobody.** The `catch` branch of `CoordinatorCommit`, which answers
the batch with ERROR, is not modelled. -/
theorem group_commit_exact (config : N → ClusterConfig N) (as : List (Action N C L)) :
    (∀ n, ((run (init config) as).groups n).active = true ↔ ((run (init config) as).groups n).waiters ≠ []) ∧
    ∀ (j : ℕ) (f : Fiber N C) (w : RaftWaiter N C), (run (init config) as).fibers[j]? = some f → f.waiter = some w →
      (tally (init config) {} as).pushes j ≤ 1 ∧ (tally (init config) {} as).takes j ≤ 1 ∧
      (tally (init config) {} as).marks j ≤ 1 ∧
      ((∀ attempt, f.pc ≠ .submitEnter attempt) → (tally (init config) {} as).pushes j = 1) ∧
      (w.res ≠ none ↔ (tally (init config) {} as).marks j = 1) ∧
      ∀ r, f.pc = .returned (.submitted r) → (tally (init config) {} as).pushes j = 1 ∧
        (tally (init config) {} as).takes j = 1 ∧ (tally (init config) {} as).marks j = 1 := by
  have h := run_tallied as (tallied_init (L := L) config)
  refine ⟨h.active, fun j f w hj hw => ?_⟩
  obtain ⟨p, hs⟩ := h.stands j f w hj hw
  have hres := hs.res
  have hfit := hs.phase
  generalize tally (init config) {} as = c at hs
  have htally := hs.tally
  cases p with
  | outside =>
    obtain ⟨h1, h2, h3⟩ : c.pushes j = 0 ∧ c.takes j = 0 ∧ c.marks j = 0 := by simpa [Place.tally] using htally
    have hnone : w.res = none := hres.2 Place.noConfusion
    refine ⟨by omega, by omega, by omega, fun henter => ?_, by rw [hnone, h3]; simp, fun r hr => ?_⟩
    · -- only a call that has not pushed yet is outside
      generalize hph : f.pc.phase = ph at hfit
      cases ph with
      | enter =>
        obtain ⟨attempt, hpc⟩ := Pc.phase_enter hph
        exact absurd hpc (henter attempt)
      | wait => exact absurd rfl hfit
      | fulfils => rcases hfit with hfit | hfit <;> cases hfit
      | other => exact hfit.elim
      | _ => cases hfit
    · rw [hr] at hfit; cases hfit
  | queued =>
    obtain ⟨h1, h2, h3⟩ : c.pushes j = 1 ∧ c.takes j = 0 ∧ c.marks j = 0 := by simpa [Place.tally] using htally
    have hnone : w.res = none := hres.2 Place.noConfusion
    refine ⟨by omega, by omega, by omega, fun _ => h1, by rw [hnone, h3]; simp, fun r hr => ?_⟩
    rw [hr] at hfit; cases hfit
  | batch =>
    obtain ⟨h1, h2, h3⟩ : c.pushes j = 1 ∧ c.takes j = 1 ∧ c.marks j = 0 := by simpa [Place.tally] using htally
    have hnone : w.res = none := hres.2 Place.noConfusion
    refine ⟨by omega, by omega, by omega, fun _ => h1, by rw [hnone, h3]; simp, fun r hr => ?_⟩
    rw [hr] at hfit; cases hfit
  | marked =>
    obtain ⟨h1, h2, h3⟩ : c.pushes j = 1 ∧ c.takes j = 1 ∧ c.marks j = 1 := by simpa [Place.tally] using htally
    have hsome : w.res ≠ none := fun hn => hres.1 hn rfl
    exact ⟨by omega, by omega, by omega, fun _ => h1, by simp [hsome, h3], fun r _ => ⟨h1, h2, h3⟩⟩

def submitTwo : List (Action Unit ℕ (CommandLog Unit ℕ)) :=
  [.call () .bootstrapSingleNode, .call () (.submitEntry (.client 7)), .call () (.submitEntry (.client 8)), .advance 0,
    .advance 1, .advance 0, .advance 0, .advance 0, .advance 0, .advance 0, .advance 0, .advance 1]

theorem group_commit_exact_two : ((run (init (fun _ => {})) submitTwo).fibers[1]?).map Fiber.pc =
      some (.returned (.submitted ⟨.ok, 1⟩)) ∧
    (tally (init (fun _ => {})) {} submitTwo).pushes 1 = 1 ∧ (tally (init (fun _ => {})) {} submitTwo).takes 1 = 1 ∧
    (tally (init (fun _ => {})) {} submitTwo).marks 1 = 1 := by
  have hk : (run (init (fun _ => {})) submitTwo).fibers[1]? = some ⟨(), .returned (.submitted ⟨.ok, 1⟩), none,
      some ⟨2, ⟨1, 2, .client 8⟩, some ⟨.ok, 1⟩⟩⟩ := by decide +kernel
  obtain ⟨-, -, -, -, -, hret⟩ := (group_commit_exact (fun _ => {}) submitTwo).2 1 _ _ hk rfl
  exact ⟨by rw [hk]; rfl, hret ⟨.ok, 1⟩ rfl⟩

/-! ## Every call is answered -/

structure Served (s : Cluster N C L) : Prop where
  counted : ∀ (j : ℕ) (f : Fiber N C) (batch : List ℕ) (applied : ℕ), s.fibers[j]? = some f →
    f.pc.phase = .fulfils batch applied → ∀ i ∈ batch, s.waiterIdx i ≤ applied
  result : ∀ (j : ℕ) (f : Fiber N C) (w : RaftWaiter N C) (r : ApplyResult), s.fibers[j]? = some f → f.waiter = some w →
    w.res = some r → r = ⟨.ok, 1⟩
  answer : ∀ (j : ℕ) (f : Fiber N C) (w : RaftWaiter N C) (r : ApplyResult), s.fibers[j]? = some f → f.waiter = some w →
    f.pc.phase = .done r → r = ⟨.ok, 1⟩

lemma served_init : Served (init config : Cluster N C L) :=
  ⟨fun j f batch applied h => by simp [init] at h, fun j f w r h => by simp [init] at h,
    fun j f w r h => by simp [init] at h⟩

lemma le_batchMax {batch : List ℕ} {i : ℕ} (hi : i ∈ batch) (s : Cluster N C L) :
    s.waiterIdx i ≤ s.batchMax batch := by
  have hmono : ∀ (l : List ℕ) (m : ℕ), m ≤ l.foldl (fun m w => max m (s.waiterIdx w)) m := by
    intro l
    induction l with
    | nil => exact fun m => le_rfl
    | cons _ _ ih => exact fun m => (le_max_left _ _).trans (ih _)
  have hmem : ∀ (l : List ℕ) (m : ℕ), i ∈ l → s.waiterIdx i ≤ l.foldl (fun m w => max m (s.waiterIdx w)) m := by
    intro l
    induction l with
    | nil => intro m hi; cases hi
    | cons _ l ih =>
      intro m hi
      rcases mem_cons.1 hi with rfl | hi
      · exact (le_max_right _ _).trans (hmono l _)
      · exact ih _ hi
  exact hmem batch 0 hi

lemma Follows.waiterIdx (h : Follows s f f') (hj : s.fibers[j]? = some f) (hj' : t.fibers[j]? = some f') :
    t.waiterIdx j ≤ s.waiterIdx j := by
  unfold Cluster.waiterIdx
  rw [hj, hj']
  show (f'.waiter.map RaftWaiter.idx).getD 0 ≤ (f.waiter.map RaftWaiter.idx).getD 0
  rcases h.idx with hn | he
  · rw [hn]; exact Nat.zero_le _
  · rw [he]

section Served
variable {c : Tally} {e : GroupEvent} (hs : Served s) (hm : GroupMove s a t e) (hj : t.fibers[j]? = some f')
  {r : ApplyResult}
include hs hm hj

lemma GroupMove.counted (hq : Queued s) (hok : inTime s a = true) {batch : List ℕ} {applied : ℕ}
    (hp' : f'.pc.phase = .fulfils batch applied) : ∀ i ∈ batch, t.waiterIdx i ≤ applied := by
  intro i hi
  cases hsj : s.fibers[j]? with
  | none =>
    have hnil := (hm.fresh hsj hj).batch
    rw [hp'] at hnil
    rw [show batch = [] from hnil] at hi
    cases hi
  | some f =>
    suffices hbefore : s.waiterIdx i ≤ applied ∧ i ∈ f.pc.phase.batch by
      obtain ⟨g, hg, -⟩ := hq.batches j f hsj i hbefore.2
      obtain ⟨g', hg', hfol⟩ := hm.stays hg
      exact (hfol.waiterIdx hg hg').trans hbefore.1
    have hsame : f.pc.phase = .fulfils batch applied → s.waiterIdx i ≤ applied ∧ i ∈ f.pc.phase.batch :=
      fun hp => ⟨hs.counted j f batch applied hsj hp i hi, by rw [hp]; exact hi⟩
    have hset : ∀ {k : ℕ} {g g' : Fiber N C}, s.fibers[k]? = some g → t.fibers = s.fibers.set k g' →
        (g'.pc.phase = .fulfils batch applied → False) → s.waiterIdx i ≤ applied ∧ i ∈ f.pc.phase.batch := by
      intro k g g' hk hf hno
      rcases set_back hk hf hj with ⟨rfl, rfl⟩ | ⟨-, hj'⟩
      · exact (hno hp').elim
      · obtain rfl := Option.some.inj (hsj.symm.trans hj')
        exact hsame hp'
    cases hm with
    | quiet _ hold =>
      obtain ⟨f'', hf'', -, -, hquiet⟩ := hold j f hsj
      obtain rfl := Option.some.inj (hj.symm.trans hf'')
      rw [hp'] at hquiet
      cases hquiet with
      | stay hp => exact hsame hp
      | count _ _ hp hmax =>
        refine ⟨(le_batchMax hi s).trans (hmax.resolve_right (by rw [hok]; exact Bool.noConfusion)),
          by rw [hp]; exact hi⟩
      | unanswered _ _ _ _ _ hb => rw [show batch = [] from hb] at hi; cases hi
    | push _ _ _ hk _ _ hf _ _ hpg =>
      refine hset hk hf (fun h => ?_)
      rcases hpg with hpg | ⟨-, hpg⟩
      · rw [hpg] at h; cases h
      · rw [hpg] at h; cases h
    | take _ _ _ hk _ _ hf _ _ hpg => exact hset hk hf (fun h => by rw [hpg] at h; cases h)
    | mark _ g w _ _ hk hp _ _ hold =>
      obtain ⟨f'', hf'', -, hph, -⟩ := hold j f hsj
      obtain rfl := Option.some.inj (hj.symm.trans hf'')
      rw [hp'] at hph
      split_ifs at hph with hjk
      · subst hjk
        obtain rfl := Option.some.inj (hk.symm.trans hsj)
        cases hph
        have hmem : i ∈ w :: batch := mem_cons_of_mem w hi
        exact ⟨hs.counted j g _ applied hk hp i hmem, by rw [hp]; exact hmem⟩
      · exact hsame hph.symm
    | reset _ _ hf =>
      rw [hf, getElem?_map, hsj, Option.map_some] at hj
      rw [← Option.some.inj hj] at hp'
      split_ifs at hp'
      · cases hp'
      · exact hsame hp'

lemma GroupMove.result {w : RaftWaiter N C} (hw : f'.waiter = some w) (hr : w.res = some r) :
    r = ⟨.ok, 1⟩ := by
  cases hsj : s.fibers[j]? with
  | none =>
    cases hm.fresh hsj hj with
    | other hn => rw [hn] at hw; cases hw
    | submits _ hw' hr' =>
      obtain rfl := Option.some.inj (hw.symm.trans hw')
      cases hr.symm.trans hr'
  | some f =>
    have hsame : f'.waiter = f.waiter → r = ⟨.ok, 1⟩ := fun he => hs.result j f w r hsj (he ▸ hw) hr
    have hset : ∀ {k : ℕ} {g g' : Fiber N C}, s.fibers[k]? = some g → t.fibers = s.fibers.set k g' →
        g'.waiter = g.waiter → r = ⟨.ok, 1⟩ := by
      intro k g g' hk hf he
      rcases set_back hk hf hj with ⟨rfl, rfl⟩ | ⟨-, hj'⟩
      · obtain rfl := Option.some.inj (hk.symm.trans hsj)
        exact hsame he
      · obtain rfl := Option.some.inj (hsj.symm.trans hj')
        exact hsame rfl
    cases hm with
    | quiet _ hold =>
      obtain ⟨f'', hf'', -, he, -⟩ := hold j f hsj
      obtain rfl := Option.some.inj (hj.symm.trans hf'')
      exact hsame he
    | push _ _ _ hk _ _ hf _ he | take _ _ _ hk _ _ hf _ he => exact hset hk hf he
    | mark k g _ _ applied hk hp _ _ hold =>
      obtain ⟨f'', hf'', -, -, he⟩ := hold j f hsj
      obtain rfl := Option.some.inj (hj.symm.trans hf'')
      split_ifs at he with hji
      · subst hji
        rw [hw] at he
        obtain ⟨w0, hw0, rfl⟩ := Option.map_eq_some_iff.1 he.symm
        have hle := hs.counted k g _ applied hk hp j mem_cons_self
        have hidx : s.waiterIdx j = w0.idx := by
          unfold waiterIdx
          rw [hsj]
          show (f.waiter.map RaftWaiter.idx).getD 0 = w0.idx
          rw [hw0]
          rfl
        rw [hidx] at hle
        rw [waiterResult, if_pos hle] at hr
        exact (Option.some.inj hr).symm
      · exact hsame he
    | reset _ _ hf =>
      rw [hf, getElem?_map, hsj, Option.map_some] at hj
      rw [← Option.some.inj hj] at hw
      split_ifs at hw
      exact hs.result j f w r hsj hw hr

lemma GroupMove.answer (ht : Tallied s c) {w : RaftWaiter N C} (hw : f'.waiter = some w)
    (hp' : f'.pc.phase = .done r) : r = ⟨.ok, 1⟩ := by
  cases hsj : s.fibers[j]? with
  | none =>
    cases hm.fresh hsj hj with
    | other hn => rw [hn] at hw; cases hw
    | submits _ _ _ hp => rw [hp] at hp'; cases hp'
  | some f =>
    have hset : ∀ {k : ℕ} {g g' : Fiber N C}, s.fibers[k]? = some g → t.fibers = s.fibers.set k g' →
        (g'.pc.phase = .done r → False) → r = ⟨.ok, 1⟩ := by
      intro k g g' hk hf hno
      rcases set_back hk hf hj with ⟨rfl, rfl⟩ | ⟨-, hj'⟩
      · exact (hno hp').elim
      · exact hs.answer j f' w r hj' hw hp'
    cases hm with
    | quiet _ hold =>
      obtain ⟨f'', hf'', -, he, hquiet⟩ := hold j f hsj
      obtain rfl := Option.some.inj (hj.symm.trans hf'')
      rw [hp'] at hquiet
      cases hquiet with
      | stay hp => exact hs.answer j f w r hsj (he ▸ hw) hp
      | answer w' r _ hw' hr => exact hs.result j f w' r hsj hw' hr
      | unanswered _ hp hw' hr => exact absurd hr (ht.checked hsj hp hw')
    | push _ _ _ hk _ _ hf _ _ hpg =>
      refine hset hk hf (fun h => ?_)
      rcases hpg with hpg | ⟨-, hpg⟩
      · rw [hpg] at h; cases h
      · rw [hpg] at h; cases h
    | take _ _ _ hk _ _ hf _ _ hpg => exact hset hk hf (fun h => by rw [hpg] at h; cases h)
    | mark _ _ _ _ _ _ _ _ _ hold =>
      obtain ⟨f'', hf'', -, hph, he⟩ := hold j f hsj
      obtain rfl := Option.some.inj (hj.symm.trans hf'')
      rw [hp'] at hph
      split_ifs at hph
      rw [hw] at he
      split_ifs at he
      · obtain ⟨w0, hw0, -⟩ := Option.map_eq_some_iff.1 he.symm
        exact hs.answer j f w0 r hsj hw0 hph.symm
      · exact hs.answer j f w r hsj he.symm hph.symm
    | reset _ _ hf =>
      rw [hf, getElem?_map, hsj, Option.map_some] at hj
      rw [← Option.some.inj hj] at hw hp'
      split_ifs at hw hp'
      exact hs.answer j f w r hsj hw hp'

end Served

lemma step_served {c : Tally} (ht : Tallied s c) (hs : Served s) (hok : inTime s a = true) : Served (s.step a) := by
  have hm := step_groupMove s a
  exact ⟨fun j f batch applied hj hp => hm.counted hs hj ht.queued hok hp,
    fun j f w r hj hw hr => hm.result hs hj hw hr,
    fun j f w r hj hw hp => hm.answer hs hj ht hw hp⟩

lemma run_served {s : Cluster N C L} {c : Tally} (ht : Tallied s c) (hs : Served s)
    (hok : along inTime s as = true) : Served (run s as) := by
  induction as generalizing s c with
  | nil => exact hs
  | cons a _ ih =>
    simp only [along, Bool.and_eq_true] at hok
    exact ih (step_tallied ht a) (step_served ht hs hok.1) hok.2

/-- **SubmitEntry does not give up.** -/
theorem submit_answers_ok (as : List (Action N C L))
    (hok : along inTime (init config) as = true) {k : ℕ} {f : Fiber N C} {w : RaftWaiter N C} {r : ApplyResult}
    (hk : (run (init config : Cluster N C L) as).fibers[k]? = some f) (hw : f.waiter = some w)
    (hret : f.pc = .returned (.submitted r)) : r = ⟨.ok, 1⟩ :=
  (run_served as (tallied_init config) (served_init config) hok).answer k f w r hk hw (by rw [hret]; rfl)

end Cluster

end MaxRedis.Raft
