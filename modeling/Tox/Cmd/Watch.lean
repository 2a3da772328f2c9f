import Tox.Cmd.Server
import Tox.Foundation.Debounce

/-!
# Edits of the configuration file

The watcher ignores the changes of the ten seconds after one that it has accepted, and loads the
file five seconds after an accepted one. So a change between the fifth and the tenth second is not
loaded, unless a later one is accepted.

Every reload finds the file as it is five seconds after the accepted change (`reloads_eq`). The last
reload therefore loads the last edit exactly if that edit comes at most five seconds after the last
accepted change, or the file had the same content by then anyway (`last_edit_loaded_iff`). The
configuration of the server is the one that the last reload has loaded (`Server.conf_edits`).
-/

namespace Tox.Cmd

open Tox.Foundation Tox.Panel

/-! ### The watcher -/

/-- The changes that are ignored after an accepted one, in nanoseconds. -/
def ignoreWindow : ℤ := 10 * 1000000000

/-- The time between an accepted change and the reload, in nanoseconds. -/
def reloadDelay : ℤ := 5 * 1000000000

/-- The watcher of a configuration file. -/
structure Watcher where
  /-- The content of the file. -/
  file : Body
  /-- The time of the last change that has been accepted. -/
  pre : Option ℤ := none
  /-- The times of the reloads that are still to come. -/
  pending : List ℤ := []
  /-- What the reloads have loaded so far. -/
  loaded : List Body := []

namespace Watcher

/-- The file is written. The reloads that are due before have found the old content. -/
def step (w : Watcher) (e : Timed Body) : Watcher :=
  let pending := w.pending.dropWhile (· < e.time)
  let loaded := w.loaded ++ (w.pending.takeWhile (· < e.time)).map fun _ => w.file
  if Passes ignoreWindow w.pre e.time then
    { file := e.value
      pre := some e.time
      pending := pending ++ [e.time + reloadDelay]
      loaded := loaded }
  else { w with file := e.value, pending := pending, loaded := loaded }

/-- What all reloads load if the file is not written any more. -/
def finish (w : Watcher) : List Body := w.loaded ++ w.pending.map fun _ => w.file

end Watcher

/-- What the reloads load along a sequence of edits of a file. -/
def reloads (file : Body) (es : List (Timed Body)) : List Body :=
  (es.foldl Watcher.step { file := file }).finish

/-! ### What the reloads load -/

/-- The edits come in the order of their times. -/
def Chronological (es : List (Timed Body)) : Prop := es.Pairwise fun e e' => e.time ≤ e'.time

instance (es : List (Timed Body)) : Decidable (Chronological es) :=
  inferInstanceAs (Decidable (es.Pairwise _))

theorem Chronological.time_le_getLast {es : List (Timed Body)} (h : Chronological es)
    (hne : es ≠ []) {e : Timed Body} (he : e ∈ es) : e.time ≤ (es.getLast hne).time := by
  rw [Chronological, ← List.dropLast_append_getLast hne] at h
  rw [← List.dropLast_append_getLast hne] at he
  rcases List.mem_append.mp he with he | he
  · exact (List.pairwise_append.mp h).2.2 e he _ (List.mem_singleton_self _)
  · rw [List.mem_singleton.mp he]

namespace Watcher

/-- The reloads to come are in the order of their times, and belong to changes up to the last
accepted one. -/
structure Ordered (w : Watcher) : Prop where
  sorted : w.pending.Pairwise (· ≤ ·)
  due : ∀ t ∈ w.pending, ∃ p, w.pre = some p ∧ t ≤ p + reloadDelay

theorem Ordered.step {w : Watcher} (h : w.Ordered) (e : Timed Body) : (w.step e).Ordered := by
  have hdrop : (w.pending.dropWhile (· < e.time)).Sublist w.pending := List.dropWhile_sublist _
  rw [Watcher.step]
  split_ifs with hpasses
  · have hle (t : ℤ) (ht : t ∈ w.pending.dropWhile (· < e.time)) : t ≤ e.time + reloadDelay := by
      obtain ⟨p, hp, htp⟩ := h.due t (hdrop.subset ht)
      have hlate := hpasses p hp
      rw [ignoreWindow] at hlate
      omega
    constructor
    · refine List.pairwise_append.mpr ⟨h.sorted.sublist hdrop, List.pairwise_singleton _ _, ?_⟩
      intro t ht t' ht'
      rw [List.mem_singleton.mp ht']
      exact hle t ht
    · intro t ht
      refine ⟨e.time, rfl, ?_⟩
      rcases List.mem_append.mp ht with ht | ht
      · exact hle t ht
      · rw [List.mem_singleton.mp ht]
  · exact ⟨h.sorted.sublist hdrop, fun t ht => h.due t (hdrop.subset ht)⟩

/-- The reloads that are due before a write find the old content, the others what has been written
until then. -/
theorem map_valueAt_pending {w : Watcher} (h : w.Ordered) {e : Timed Body} {es : List (Timed Body)}
    (hes : Chronological (e :: es)) :
    w.pending.map (valueAt w.file (e :: es)) =
      ((w.pending.takeWhile (· < e.time)).map fun _ => w.file) ++
        (w.pending.dropWhile (· < e.time)).map (valueAt e.value es) := by
  conv_lhs => rw [← List.takeWhile_append_dropWhile (p := (· < e.time)) (l := w.pending)]
  rw [List.map_append]
  congr 1
  · refine List.map_congr_left fun t ht => valueAt_of_forall_lt fun e' he' => ?_
    have hlt : t < e.time := by simpa using List.mem_takeWhile_imp ht
    rcases List.mem_cons.mp he' with rfl | he'
    · exact hlt
    · exact hlt.trans_le ((List.pairwise_cons.mp hes).1 e' he')
  · refine List.map_congr_left fun t ht => ?_
    exact valueAt_cons_of_le (le_of_mem_dropWhile_lt h.sorted ht) es

/-- What the reloads load from some state of the watcher on. -/
theorem finish_foldl_step {w : Watcher} (h : w.Ordered) {es : List (Timed Body)}
    (hes : Chronological es) :
    (es.foldl step w).finish = w.loaded ++ (w.pending.map (valueAt w.file es) ++
      (debounced Timed.time ignoreWindow w.pre es).map
        fun e => valueAt w.file es (e.time + reloadDelay)) := by
  induction es generalizing w with
  | nil => exact congrArg (w.loaded ++ ·) (List.append_nil _).symm
  | cons e es ih =>
    have hlater (pre : Option ℤ) :
        (debounced Timed.time ignoreWindow pre es).map
            (fun e' => valueAt w.file (e :: es) (e'.time + reloadDelay)) =
          (debounced Timed.time ignoreWindow pre es).map
            fun e' => valueAt e.value es (e'.time + reloadDelay) := by
      refine List.map_congr_left fun e' he' => valueAt_cons_of_le ?_ es
      have hle := (List.pairwise_cons.mp hes).1 e' ((debounced_sublist pre es).subset he')
      rw [reloadDelay]
      omega
    rw [List.foldl_cons, ih (h.step e) (List.pairwise_cons.mp hes).2, map_valueAt_pending h hes]
    by_cases hpasses : Passes ignoreWindow w.pre e.time
    · have hself : valueAt w.file (e :: es) (e.time + reloadDelay) =
          valueAt e.value es (e.time + reloadDelay) :=
        valueAt_cons_of_le (by rw [reloadDelay]; omega) es
      rw [debounced_cons_of_passes hpasses, List.map_cons, hself, hlater, step, if_pos hpasses]
      simp only [List.map_append, List.map_cons, List.map_nil, List.append_assoc,
        List.singleton_append]
    · rw [debounced_cons_of_not hpasses, hlater, step, if_neg hpasses]
      simp only [List.append_assoc]

end Watcher

/-- **What the reloads load.** Every accepted edit is followed by one reload, which finds the file
as it is five seconds later. -/
theorem reloads_eq (file : Body) {es : List (Timed Body)} (hes : Chronological es) :
    reloads file es = (debounced Timed.time ignoreWindow none es).map
      fun e => valueAt file es (e.time + reloadDelay) := by
  have hordered : Watcher.Ordered { file := file } := ⟨.nil, nofun⟩
  exact Watcher.finish_foldl_step hordered hes

/-- **The last edit.** The last reload loads the content of the last edit if and only if this edit
comes at most five seconds after the last accepted one, or the file had the same content by then
anyway. -/
theorem last_edit_loaded_iff (file : Body) (es : List (Timed Body)) (hes : Chronological es)
    (hne : es ≠ []) :
    (reloads file es).getLast? = some (es.getLast hne).value ↔
      ∃ e, (debounced Timed.time ignoreWindow none es).getLast? = some e ∧
        ((es.getLast hne).time ≤ e.time + reloadDelay ∨
          valueAt file es (e.time + reloadDelay) = (es.getLast hne).value) := by
  obtain ⟨e, he⟩ : ∃ e, (debounced Timed.time ignoreWindow none es).getLast? = some e :=
    ⟨_, List.getLast?_eq_some_getLast (debounced_none_ne_nil hne)⟩
  rw [reloads_eq file hes, List.getLast?_map, he, Option.map_some, Option.some.injEq]
  constructor
  · intro h
    exact ⟨e, rfl, .inr h⟩
  · rintro ⟨e', he', htime | hvalue⟩
    · obtain rfl := Option.some.inj he'
      exact valueAt_of_forall_le (fun e'' he'' => (hes.time_le_getLast hne he'').trans htime) hne
    · obtain rfl := Option.some.inj he'
      exact hvalue

/-- Two edits three seconds apart. -/
theorem last_edit_loaded_iff_twoEdits :
    (reloads [] [⟨0, [1]⟩, ⟨3 * 1000000000, [2]⟩]).getLast? = some [2] := by
  refine (last_edit_loaded_iff [] [⟨0, [1]⟩, ⟨3 * 1000000000, [2]⟩] (by decide)
    (List.cons_ne_nil _ _)).mpr ⟨⟨0, [1]⟩, by decide, .inl (by decide)⟩

/-- **An edit that is lost.** The file is written twice, seven seconds apart. The second change is
ignored, and the only reload has loaded the first content. -/
theorem edit_lost :
    Chronological [⟨0, [1]⟩, ⟨7 * 1000000000, [2]⟩] ∧
      reloads [] [⟨0, [1]⟩, ⟨7 * 1000000000, [2]⟩] = [[1]] ∧
      (reloads [] [⟨0, [1]⟩, ⟨7 * 1000000000, [2]⟩]).getLast? ≠ some [2] := by
  decide

/-! ### The configuration of the server -/

/-- The event of an edit. The server loads the file five seconds later. -/
def WatchEvent.ofEdit (input : Timed Body → RestartInput) (file : Body) (es : List (Timed Body))
    (e : Timed Body) : WatchEvent where
  now := e.time
  file := .content (valueAt file es (e.time + reloadDelay))
  restart := input e

namespace Server

variable {lib : ServerLibrary} {s : Server}

theorem recent_iff_not_passes {now : ℤ} :
    s.Recent now ↔ ¬ Passes ignoreWindow s.pre now := by
  simp only [Recent, Passes, ignoreWindow, not_forall, not_le, exists_prop]

/-- A restart keeps the configuration and the time of the last accepted change. -/
theorem conf_pre_restart (lib : ServerLibrary) (s : Server) (input : RestartInput) :
    (s.restart lib input).conf = s.conf ∧ (s.restart lib input).pre = s.pre := by
  rw [restart]
  rcases s.nodes.close input.removal with ⟨nodes, _ | k⟩
  · dsimp only
    rcases s.vc with _ | core
    · exact ⟨rfl, rfl⟩
    · dsimp only
      rcases input.closeCore with _ | err
      · dsimp only [startCore]
        rcases newCore lib input.create s.conf.coresConfig with err | cores
        · exact ⟨rfl, rfl⟩
        · rcases input.startCore with _ | err
          · exact ⟨rfl, rfl⟩
          · exact ⟨rfl, rfl⟩
      · exact ⟨rfl, rfl⟩
  · exact ⟨rfl, rfl⟩

/-- An event that is not ignored leads to a restart with the file that it finds. -/
theorem watch_of_passes (halive : s.crashed = none) {e : WatchEvent} (hchmod : e.chmod = false)
    (hpasses : Passes ignoreWindow s.pre e.now) :
    s.watch lib e =
      restart lib { s with pre := some e.now, conf := (Conf.loadFromPath lib {} e.file).1 }
        e.restart := by
  have hrecent : ¬ s.Recent e.now := by
    rw [recent_iff_not_passes, not_not]
    exact hpasses
  rw [watch, halive, hchmod]
  exact (if_neg Bool.false_ne_true).trans ((if_neg Bool.false_ne_true).trans (if_neg hrecent))

theorem watch_of_not_passes {e : WatchEvent} (hpasses : ¬ Passes ignoreWindow s.pre e.now) :
    s.watch lib e = s := by
  rw [watch]
  split_ifs with _ _ hrecent
  · rfl
  · rfl
  · rfl
  · exact absurd (recent_iff_not_passes.mpr hpasses) hrecent

/-- The configuration after events is that of the last one that has not been ignored. -/
theorem conf_foldl_watch (ws : List WatchEvent) (hchmod : ∀ w ∈ ws, w.chmod = false)
    (halive : (ws.foldl (watch lib) s).crashed = none) :
    (ws.foldl (watch lib) s).conf =
      match (debounced WatchEvent.now ignoreWindow s.pre ws).getLast? with
      | none => s.conf
      | some e => (Conf.loadFromPath lib {} e.file).1 := by
  induction ws generalizing s with
  | nil => rfl
  | cons w ws ih =>
    obtain ⟨hw, hws⟩ := List.forall_mem_cons.mp hchmod
    have hfirst : (s.watch lib w).crashed = none := by
      by_contra hcrashed
      exact crashed_foldl_watch ws hcrashed halive
    have hs : s.crashed = none := by
      by_contra hcrashed
      exact crashed_foldl_watch (w :: ws) hcrashed halive
    rw [List.foldl_cons, ih hws halive]
    by_cases hpasses : Passes ignoreWindow s.pre w.now
    · obtain ⟨hconf, hpre⟩ := conf_pre_restart lib
        { s with pre := some w.now, conf := (Conf.loadFromPath lib {} w.file).1 } w.restart
      rw [← watch_of_passes hs hw hpasses] at hconf hpre
      rw [hconf, hpre, debounced_cons_of_passes hpasses, List.getLast?_cons]
      rcases (debounced WatchEvent.now ignoreWindow (some w.now) ws).getLast? with _ | w'
      · rfl
      · rfl
    · rw [watch_of_not_passes hpasses, debounced_cons_of_not hpasses]

/-- **The configuration after edits.** As long as the program runs, the server has the configuration
of what the last reload has loaded. -/
theorem conf_edits (input : Timed Body → RestartInput) {file : Body} {es : List (Timed Body)}
    (hes : Chronological es) (hpre : s.pre = none)
    (halive : ((es.map (.ofEdit input file es)).foldl (watch lib) s).crashed = none) {c : Body}
    (hc : (reloads file es).getLast? = some c) :
    ((es.map (.ofEdit input file es)).foldl (watch lib) s).conf =
      (Conf.loadFromPath lib {} (.content c)).1 := by
  have hchmod : ∀ w ∈ es.map (WatchEvent.ofEdit input file es), w.chmod = false := by
    intro w hw
    obtain ⟨e, -, rfl⟩ := List.mem_map.mp hw
    rfl
  have hmap : debounced WatchEvent.now ignoreWindow none (es.map (.ofEdit input file es)) =
      (debounced Timed.time ignoreWindow none es).map (.ofEdit input file es) :=
    debounced_map (fun _ => rfl) none es
  rw [conf_foldl_watch _ hchmod halive, hpre, hmap, List.getLast?_map]
  rw [reloads_eq file hes, List.getLast?_map] at hc
  obtain ⟨e, he, rfl⟩ := Option.map_eq_some_iff.mp hc
  rw [he]
  rfl

end Server

/-- Two edits of the log level, twenty seconds apart. -/
def twoEdits : List (Timed Body) := [⟨0, confFile "debug"⟩, ⟨20 * 1000000000, confFile "error"⟩]

/-- The server is started with the level `info`, and the second of the two edits is the one that
stays. -/
theorem conf_edits_twoEdits :
    ∃ s, serverHandle sampleServerLibrary (.content (confFile "info")) sampleRestart = some s ∧
      ((twoEdits.map (.ofEdit (fun _ => sampleRestart) (confFile "info") twoEdits)).foldl
          (Server.watch sampleServerLibrary) s).conf =
        (Conf.loadFromPath sampleServerLibrary {} (.content (confFile "error"))).1 ∧
      ∀ level ∈ ["info", "debug", "error"],
        Conf.loadFromPath sampleServerLibrary {} (.content (confFile level)) =
          (sampleConf level, none) := by
  obtain ⟨s, hstart, hpre, halive⟩ :
      ∃ s, serverHandle sampleServerLibrary (.content (confFile "info")) sampleRestart = some s ∧
        s.pre = none ∧
        ((twoEdits.map (.ofEdit (fun _ => sampleRestart) (confFile "info") twoEdits)).foldl
          (Server.watch sampleServerLibrary) s).crashed = none := by
    have hevents : twoEdits.map (.ofEdit (fun _ => sampleRestart) (confFile "info") twoEdits) =
        ([⟨false, 0, .content (confFile "debug"), sampleRestart⟩,
          ⟨false, 20 * 1000000000, .content (confFile "error"), sampleRestart⟩] :
            List WatchEvent) := rfl
    rw [serverHandle, loadFromPath_confFile (by decide), hevents]
    refine ⟨_, rfl, rfl, ?_⟩
    simp only [List.foldl_cons, List.foldl_nil, Server.watch,
      loadFromPath_confFile (by decide : "debug" ∈ _),
      loadFromPath_confFile (by decide : "error" ∈ _)]
    rfl
  exact ⟨s, hstart, Server.conf_edits _ (by decide) hpre halive (by decide),
    fun level => loadFromPath_confFile⟩

end Tox.Cmd
