import ConsoleLens.Proofs.Tree.Expansion

/-!
# Proofs/Tree/Deferral — a query for the top level waits for the page, not for its settings

A query for the top level that comes too early keeps the settings that it was made under, and
nothing else: the tree and the maps are those of the moment when it is answered.

    query, waiting ──add · load · clear · reset · serve · other queries──▸ late tree ──▸ answer

**In a late tree that is loaded and serves, the answer is that of a query made only then, under the
settings kept** (`resume_topLevel`); in one that is pending there is no answer yet.  So the waiting
makes a difference where the grouping was switched in between, and where the tree no longer serves
(`not_answersAfresh`).
-/

namespace ConsoleLens

/-- A query for the top level waits when the tree serves and the page has not loaded. -/
theorem LogTree.query_none_eq_waiting {t : LogTree} {registry : Registry} {settings : Settings}
    {w : Waiting} (h : (t.query registry settings none).1 = .waiting w) :
    w = .load settings ∧ t.query registry settings none = (.waiting w, t) := by
  by_cases hr : t.ready
  · rw [query_none_eq hr] at h ⊢
    split at h
    · cases h
    · next hp =>
      cases h
      rw [if_neg hp]
      exact ⟨rfl, rfl⟩
  · rw [query_eq_of_not_ready hr] at h
    cases h

/-- The flat view or the grouped one: no other setting counts for the top level. -/
theorem LogTree.topItems_congr (t : LogTree) (registry : Registry) {settings settings' : Settings}
    (h : settings'.groupByPath = settings.groupByPath) :
    t.topItems registry settings' = t.topItems registry settings := by
  rw [topItems, topItems, h]

namespace Browsing

/-- **A query that waited is answered like a fresh one**: when its answer comes, a query for the top
level that is made instead comes to the same items. -/
def AnswersAfresh (b : Browsing) (e : Surroundings) (between : List TreeAction)
    (e' : Surroundings) : Prop :=
  let late := (b.step (.query e none)).2.run between
  ∀ items, (late.step (.resume e' b.waiting.length)).1 = some items →
    (late.step (.query e' none)).1 = some items

/-- **A query for the top level that had to wait is answered from the tree of the moment**, whatever
has happened in between.  It goes on waiting while that tree is pending.  When the tree is loaded
and serves, the list is its top level, grouped or flat as the settings ask that the query was made
under: that of a query made at the moment under those settings, after which the trees are the same;
and so that of any query made at the moment, unless the grouping has been switched. -/
theorem resume_topLevel (b : Browsing) (e : Surroundings) (w : Waiting)
    (hw : (b.tree.query e.registry e.settings none).1 = .waiting w) (between : List TreeAction)
    (hopen : ∀ e', .resume e' b.waiting.length ∉ between) (e' : Surroundings) :
    let late := (b.step (.query e none)).2.run between
    let answered := late.step (.resume e' b.waiting.length)
    let fresh := late.step (.query { e' with settings := e.settings } none)
    (late.tree.phase = .pending → answered = (none, late)) ∧
    (late.tree.phase = .loaded → late.tree.ready →
      answered.1 = some ((late.tree.topItems e'.registry e.settings).map (·.1)) ∧
      answered.1 = fresh.1 ∧ answered.2.tree = fresh.2.tree ∧
      (e'.settings.groupByPath = e.settings.groupByPath → b.AnswersAfresh e between e')) := by
  intro late answered fresh
  obtain ⟨rfl, hq⟩ := LogTree.query_none_eq_waiting hw
  have hlate : late.waitingAt b.waiting.length = some (.load e.settings) := by
    refine waitingAt_run between _ ?_ hopen
    rw [step_query_waiting hq, waitingAt_append_length]
  have hanswered : answered = _ := step_resume_load hlate e'
  refine ⟨fun hp => ?_, fun hp hr => ?_⟩
  · rwa [if_neg (by simp [hp])] at hanswered
  · have hfresh : fresh = _ := step_query_none hr { e' with settings := e.settings }
    have hnow : late.step (.query e' none) = _ := step_query_none hr e'
    rw [if_pos hp] at hanswered hfresh hnow
    refine ⟨by rw [hanswered], by rw [hanswered, hfresh], by rw [hanswered, hfresh],
      fun hgroup items hitems => ?_⟩
    rw [late.tree.topItems_congr e'.registry hgroup] at hnow
    rw [← hitems, hnow]
    exact (congrArg Prod.fst hanswered).symm

/-- An object is logged while a query waits.  The page is reset, the object is logged again, and the
query waits on; then the page loads, and it is answered. -/
theorem resume_topLevel_loggedObject :
    let b := ({} : Browsing).run [.add [loggedObject]]
    let asked := (b.step (.query flatPage none)).2
    let reset := asked.run [.load, .reset, .add [loggedObject]]
    let loaded := asked.run [.load, .reset, .add [loggedObject], .load]
    (b.tree.query flatPage.registry flatPage.settings none).1 = .waiting (.load flatPage.settings) ∧
    (reset.step (.resume flatPage 0)).1 = none ∧
    ∃ items, (loaded.step (.resume flatPage 0)).1 = some items ∧
      (loaded.step (.query flatPage none)).1 = some items ∧
      items.map (·.id) = ["/a.ts:1:1[0]"] := by
  intro b asked reset loaded
  have hw : (b.tree.query flatPage.registry flatPage.settings none).1 =
      .waiting (.load flatPage.settings) := rfl
  have hreset := (resume_topLevel b flatPage _ hw [.load, .reset, .add [loggedObject]] (by simp)
    flatPage).1 rfl
  obtain ⟨hitems, -, -, hafresh⟩ := (resume_topLevel b flatPage _ hw
    [.load, .reset, .add [loggedObject], .load] (by simp) flatPage).2 rfl rfl
  exact ⟨hw, congrArg Prod.fst hreset, _, hitems, hafresh rfl _ hitems, by decide⟩

/-- Of two queries that wait for a logged object to show, one keeps the grouping that has been
switched off when the page loads, and the other lists what was logged after the tree was cleared and
stopped serving. -/
theorem not_answersAfresh :
    let b := ({} : Browsing).run [.add [loggedObject]]
    (b.tree.query {} {} none).1 = .waiting (.load {}) ∧
    ¬ b.AnswersAfresh {} [.load] { settings := { groupByPath := false } } ∧
    ¬ b.AnswersAfresh {} [.clear, .serve false, .add [loggedObject]] {} := by
  intro b
  have hdiffer {between : List TreeAction} {e' : Surroundings} {ids ids' : List String}
      (hids : ids ≠ ids') (hanswered : ((((b.step (.query {} none)).2.run between).step
        (.resume e' 0)).1).map (·.map (·.id)) = some ids)
      (hfresh : ((((b.step (.query {} none)).2.run between).step
        (.query e' none)).1).map (·.map (·.id)) = some ids') :
      ¬ b.AnswersAfresh {} between e' := by
    intro hafresh
    obtain ⟨items, hitems, rfl⟩ := Option.map_eq_some_iff.mp hanswered
    rw [hafresh items hitems] at hfresh
    exact hids (Option.some.inj hfresh)
  refine ⟨rfl, ?_, ?_⟩
  · exact hdiffer (by decide : ["a.ts"] ≠ ["/a.ts:1:1[0]"]) (by decide +kernel) (by decide +kernel)
  · exact hdiffer (by decide : ["a.ts"] ≠ []) (by decide +kernel) (by decide +kernel)

end Browsing

end ConsoleLens
