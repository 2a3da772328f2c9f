import Mathlib.Data.Finset.Image
import Tox.Core.Xray

/-!
# The core behind its interface

A node controller drives its core through the `Core` interface and sees of it only which nodes are
installed under which tags, and which users each of them has. An `Installation` is this view. A
user call that succeeds changes the users of a node by exactly the users it names; a call that
fails may leave any set of users behind, and a call for a tag without a node fails.

The sing core and the xray core implement the view: each call of `Sing` and of `Xray` is the call
of the interface on the installed nodes, with the same success. The xray core knows its users by
email, so its users are the images of the uuids under `userTag`.
-/

namespace Tox.Core

open Tox.Foundation Tox.Counter Tox.Format Tox.Panel

/-- A node as the core serves it. -/
structure InstalledNode where
  info : NodeInfo
  /-- The uuids of the users that can connect. -/
  users : Finset String := ∅

/-- The nodes of a core by tag. -/
abbrev Installation := GoMap String InstalledNode

/-- How the core carries out a user call on a node. -/
inductive CallResult
  /-- The call succeeds. -/
  | ok
  /-- The call fails and leaves the given users behind. -/
  | failed (left : Finset String)
deriving DecidableEq

/-- The uuids of a list of users. -/
def uuids (users : List UserInfo) : Finset String := (users.map UserInfo.uuid).toFinset

@[simp] theorem mem_uuids {users : List UserInfo} {k : String} :
    k ∈ uuids users ↔ ∃ u ∈ users, u.uuid = k := by
  simp only [uuids, List.mem_toFinset, List.mem_map]

namespace Installation

/-- `Core.AddNode`, when it succeeds. -/
def addNode (inst : Installation) (tag : String) (info : NodeInfo) : Installation :=
  inst.insert tag { info := info }

/-- `Core.DelNode`, when it succeeds. -/
def delNode (inst : Installation) (tag : String) : Installation := inst.erase tag

/-- A user call: the installation after it, and whether it succeeds. -/
def updateUsers (inst : Installation) (tag : String) (result : CallResult)
    (f : Finset String → Finset String) : Installation × Bool :=
  match inst.lookup tag with
  | none => (inst, false)
  | some node =>
    match result with
    | .ok => (inst.insert tag { node with users := f node.users }, true)
    | .failed left => (inst.insert tag { node with users := left }, false)

/-- `Core.AddUsers`. -/
def addUsers (inst : Installation) (tag : String) (users : List UserInfo) (result : CallResult) :
    Installation × Bool :=
  inst.updateUsers tag result (· ∪ uuids users)

/-- `Core.DelUsers`. -/
def delUsers (inst : Installation) (tag : String) (users : List UserInfo) (result : CallResult) :
    Installation × Bool :=
  inst.updateUsers tag result (· \ uuids users)

variable {inst : Installation} {tag : String} {result : CallResult}
  {f : Finset String → Finset String}

/-- A user call keeps the nodes that are installed and their settings. -/
theorem lookup_updateUsers_info (t : String) :
    ((inst.updateUsers tag result f).1.lookup t).map InstalledNode.info =
      (inst.lookup t).map InstalledNode.info := by
  cases hnode : inst.lookup tag with
  | none => simp only [updateUsers, hnode]
  | some node =>
    by_cases ht : t = tag
    · subst ht
      cases result <;>
        simp only [updateUsers, hnode, GoMap.lookup_insert, if_true, Option.map_some]
    · cases result <;> simp only [updateUsers, hnode, GoMap.lookup_insert, if_neg ht]

@[simp] theorem mem_updateUsers (t : String) :
    t ∈ (inst.updateUsers tag result f).1 ↔ t ∈ inst := by
  rw [← Finmap.lookup_isSome, ← Finmap.lookup_isSome, ← Option.isSome_map,
    lookup_updateUsers_info, Option.isSome_map]

theorem lookup_updateUsers_ok {node : InstalledNode} (h : inst.lookup tag = some node) :
    (inst.updateUsers tag .ok f).1.lookup tag = some { node with users := f node.users } := by
  simp only [updateUsers, h, GoMap.lookup_insert, if_true]

theorem eq_ok_of_updateUsers_snd (h : (inst.updateUsers tag result f).2 = true) :
    result = .ok := by
  cases result with
  | ok => rfl
  | failed left =>
    unfold updateUsers at h
    split at h <;> cases h

/-- A node that is installed and given users has exactly these. -/
theorem lookup_addNode_addUsers (inst : Installation) (tag : String) (info : NodeInfo)
    (users : List UserInfo) :
    ((inst.addNode tag info).addUsers tag users .ok).1.lookup tag = some ⟨info, uuids users⟩ := by
  have hnode : (inst.addNode tag info).lookup tag = some { info := info } :=
    Finmap.lookup_insert _
  rw [addUsers, lookup_updateUsers_ok hnode, Finset.empty_union]

theorem updateUsers_of_none (h : inst.lookup tag = none) :
    inst.updateUsers tag result f = (inst, false) := by
  simp only [updateUsers, h]

/-- A call that writes the users `w` is an outcome of the interface call, provided that it writes
the right users when it succeeds. -/
theorem exists_updateUsers_eq {node : InstalledNode} (h : inst.lookup tag = some node)
    (success : Bool) {w : Finset String} (hw : success = true → w = f node.users) :
    ∃ result, (success = true → result = .ok) ∧
      inst.updateUsers tag result f = (inst.insert tag { node with users := w }, success) := by
  cases success with
  | true => exact ⟨.ok, fun _ => rfl, by simp only [updateUsers, h, hw rfl]⟩
  | false => exact ⟨.failed w, fun hf => absurd hf Bool.false_ne_true, by
      simp only [updateUsers, h]⟩

end Installation

/-! ### The sing core implements the interface -/

namespace Sing

/-- The inbounds of the core are the nodes of the installation. -/
def Installs (b : Sing) (inst : Installation) : Prop :=
  ∀ tag, inst.lookup tag = (b.inbounds.lookup tag).map fun i => ⟨i.info, i.users.toFinset⟩

variable {b : Sing} {inst : Installation}

theorem Installs.insert (h : b.Installs inst) (registry : TrafficRegistry) (tag : String)
    (i : Inbound) : Sing.Installs ⟨registry, b.inbounds.insert tag i⟩
      (inst.insert tag ⟨i.info, i.users.toFinset⟩) := by
  intro t
  simp only [GoMap.lookup_insert]
  split_ifs
  · rfl
  · exact h t

theorem Installs.addNode (h : b.Installs inst) (tag : String) (info : NodeInfo)
    (reportMinTraffic : Int64) :
    (b.addNode tag info reportMinTraffic none).1.Installs (inst.addNode tag info) :=
  h.insert _ tag { info := info }

theorem Installs.delNode (h : b.Installs inst) (tag : String) (err : Option String) :
    (b.delNode tag err).1.Installs (inst.delNode tag) := by
  intro t
  simp only [Sing.delNode, Installation.delNode, GoMap.lookup_erase]
  by_cases hmem : tag ∈ b.inbounds
  · simp only [if_pos hmem, GoMap.lookup_erase]
    split_ifs
    · rfl
    · exact h t
  · rw [if_neg hmem, ← h t]
    split_ifs with ht
    · subst ht
      rw [h t, Finmap.lookup_eq_none.mpr hmem, Option.map_none]
    · rfl

/-- `Sing.AddUsers` is the call of the interface; it succeeds when the node is installed and the
service accepts the list. -/
theorem Installs.addUsers (h : b.Installs inst) (tag : String) (users : List UserInfo)
    (update : Option String) :
    ∃ result, (update = none → result = .ok) ∧
      (b.addUsers tag users update).1.Installs (inst.addUsers tag users result).1 ∧
      (b.addUsers tag users update).2.isOk = (inst.addUsers tag users result).2 := by
  cases hi : b.inbounds.lookup tag with
  | none =>
    have hnone : inst.lookup tag = none := by rw [h tag, hi, Option.map_none]
    refine ⟨.ok, fun _ => rfl, ?_⟩
    simp only [Sing.addUsers, hi, Installation.addUsers, Installation.updateUsers_of_none hnone]
    exact ⟨h, rfl⟩
  | some i =>
    have hsome : inst.lookup tag = some ⟨i.info, i.users.toFinset⟩ := by
      rw [h tag, hi, Option.map_some]
    obtain ⟨result, hok, hcall⟩ := Installation.exists_updateUsers_eq hsome update.isNone
      (f := (· ∪ uuids users)) (w := (i.users ++ users.map UserInfo.uuid).toFinset)
      (fun _ => List.toFinset_append)
    refine ⟨result, fun hu => hok (by rw [hu]; rfl), ?_⟩
    simp only [Sing.addUsers, hi, Installation.addUsers, hcall]
    exact ⟨h.insert _ tag { i with users := i.users ++ users.map UserInfo.uuid },
      by cases update <;> rfl⟩

/-- `Sing.DelUsers` is the call of the interface. -/
theorem Installs.delUsers (h : b.Installs inst) (tag : String) (users : List UserInfo)
    (update : Option String) :
    ∃ result, (update = none → result = .ok) ∧
      (b.delUsers tag users update).1.Installs (inst.delUsers tag users result).1 ∧
      (b.delUsers tag users update).2.isNone = (inst.delUsers tag users result).2 := by
  cases hi : b.inbounds.lookup tag with
  | none =>
    have hnone : inst.lookup tag = none := by rw [h tag, hi, Option.map_none]
    refine ⟨.ok, fun _ => rfl, ?_⟩
    simp only [Sing.delUsers, hi, Installation.delUsers, Installation.updateUsers_of_none hnone]
    exact ⟨h, rfl⟩
  | some i =>
    have hsome : inst.lookup tag = some ⟨i.info, i.users.toFinset⟩ := by
      rw [h tag, hi, Option.map_some]
    have hfilter : (i.users.filter (· ∉ users.map UserInfo.uuid)).toFinset =
        i.users.toFinset \ uuids users := by
      ext k
      simp [uuids]
    obtain ⟨result, hok, hcall⟩ := Installation.exists_updateUsers_eq hsome update.isNone
      (f := (· \ uuids users)) (fun _ => hfilter)
    refine ⟨result, fun hu => hok (by rw [hu]; rfl), ?_⟩
    simp only [Sing.delUsers, hi, Installation.delUsers, hcall]
    exact ⟨h.insert _ tag { i with users := i.users.filter (· ∉ users.map UserInfo.uuid) }, trivial⟩

end Sing

/-! ### The xray core implements the interface -/

theorem image_userTag_uuids (tag : String) (users : List UserInfo) :
    (uuids users).image (userTag tag) = (users.map fun u => userTag tag u.uuid).toFinset := by
  ext k
  simp [uuids]

namespace Xray

/-- The handlers of the core are the nodes of the installation. -/
def Installs (x : Xray) (inst : Installation) : Prop :=
  ∀ tag, (x.handlers.lookup tag).map (fun i => (i.info, i.users.toFinset)) =
    (inst.lookup tag).map fun node => (node.info, node.users.image (userTag tag))

variable {x : Xray} {inst : Installation}

theorem Installs.of_handlers_eq {x' : Xray} (h : x.Installs inst)
    (hx : x'.handlers = x.handlers) : x'.Installs inst := by
  intro tag
  rw [hx]
  exact h tag

theorem Installs.insert {x' : Xray} (h : x.Installs inst) {tag : String} {info : NodeInfo}
    {users : List String} (hx : x'.handlers = x.handlers.insert tag ⟨info, users⟩)
    {w : Finset String} (hw : users.toFinset = w.image (userTag tag)) :
    x'.Installs (inst.insert tag ⟨info, w⟩) := by
  intro t
  simp only [hx, GoMap.lookup_insert]
  split_ifs with ht
  · subst ht
    simp only [Option.map_some, hw]
  · exact h t

theorem Installs.exists_of_lookup (h : x.Installs inst) {tag : String} {i : Inbound}
    (hi : x.handlers.lookup tag = some i) :
    ∃ w, inst.lookup tag = some ⟨i.info, w⟩ ∧ i.users.toFinset = w.image (userTag tag) := by
  have htag := h tag
  rw [hi, Option.map_some, eq_comm, Option.map_eq_some_iff] at htag
  obtain ⟨⟨info, w⟩, hnode, hpair⟩ := htag
  obtain rfl : info = i.info := congrArg Prod.fst hpair
  exact ⟨w, hnode, (congrArg Prod.snd hpair).symm⟩

theorem Installs.lookup_eq_none (h : x.Installs inst) {tag : String}
    (hi : x.handlers.lookup tag = none) : inst.lookup tag = none := by
  have htag := h tag
  rw [hi, Option.map_none, eq_comm, Option.map_eq_none_iff] at htag
  exact htag

theorem Installs.addNode (h : x.Installs inst) (tag : String) (info : NodeInfo)
    (reportMinTraffic : Int64) (outErr : Option String) :
    (x.addNode tag info reportMinTraffic none outErr).1.Installs (inst.addNode tag info) :=
  h.insert rfl rfl

theorem Installs.delNode (h : x.Installs inst) (tag : String) (outErr : Option String) :
    (x.delNode tag outErr).1.Installs (inst.delNode tag) := by
  intro t
  simp only [Xray.delNode, Installation.delNode, GoMap.lookup_erase]
  by_cases hmem : tag ∈ x.handlers
  · simp only [if_pos hmem, GoMap.lookup_erase]
    split_ifs
    · rfl
    · exact h t
  · rw [if_neg hmem, h t]
    split_ifs with ht
    · subst ht
      rw [h.lookup_eq_none (Finmap.lookup_eq_none.mpr hmem)]
    · rfl

/-- `Xray.AddUsers` is the call of the interface; it succeeds when the type of the node is
supported, the node is installed and its user manager takes every user. -/
theorem Installs.addUsers (h : x.Installs inst) (tag : String) (type : NodeType)
    (users : List UserInfo) (fail : Option (ℕ × String)) :
    ∃ result, (supports type = true ∧ (upTo users fail).2 = none → result = .ok) ∧
      (x.addUsers tag type users fail).1.Installs (inst.addUsers tag users result).1 ∧
      (x.addUsers tag type users fail).2.isOk = (inst.addUsers tag users result).2 := by
  cases hi : x.handlers.lookup tag with
  | none =>
    refine ⟨.ok, fun _ => rfl, ?_⟩
    simp only [Installation.addUsers, Installation.updateUsers_of_none (h.lookup_eq_none hi)]
    constructor
    · refine h.of_handlers_eq ?_
      simp only [Xray.addUsers, hi]
      split_ifs <;> rfl
    · simp only [Xray.addUsers, hi]
      split_ifs <;> rfl
  | some i =>
    obtain ⟨w, hnode, himage⟩ := h.exists_of_lookup hi
    cases htype : supports type with
    | false =>
      -- the handler is not touched: the call fails and leaves the users there were
      obtain ⟨result, -, hcall⟩ := Installation.exists_updateUsers_eq hnode false
        (f := (· ∪ uuids users)) (w := w) (fun hf => absurd hf Bool.false_ne_true)
      refine ⟨result, fun hf => absurd hf.1 Bool.false_ne_true, ?_⟩
      simp only [Xray.addUsers, htype, Installation.addUsers, hcall, Bool.false_eq_true, if_false]
      refine ⟨fun t => (h t).trans ?_, rfl⟩
      rw [GoMap.lookup_insert]
      split_ifs with ht
      · rw [ht, hnode]
      · rfl
    | true =>
      obtain ⟨result, hok, hcall⟩ := Installation.exists_updateUsers_eq hnode
        (upTo users fail).2.isNone (f := (· ∪ uuids users))
        (w := w ∪ uuids (upTo users fail).1)
        (fun hnone => by rw [upTo_fst_of_snd_eq_none (Option.isNone_iff_eq_none.mp hnone)])
      refine ⟨result, fun hf => hok (Option.isNone_iff_eq_none.mpr hf.2), ?_⟩
      simp only [Xray.addUsers, htype, if_true, hi, Installation.addUsers, hcall]
      refine ⟨h.insert rfl ?_, by cases (upTo users fail).2 <;> rfl⟩
      rw [List.toFinset_append, himage, Finset.image_union, image_userTag_uuids]

/-- `Xray.DelUsers` is the call of the interface. -/
theorem Installs.delUsers (h : x.Installs inst) (tag : String) (users : List UserInfo)
    (fail : Option (ℕ × String)) :
    ∃ result, ((upTo users fail).2 = none → result = .ok) ∧
      (x.delUsers tag users fail).1.Installs (inst.delUsers tag users result).1 ∧
      (x.delUsers tag users fail).2.isNone = (inst.delUsers tag users result).2 := by
  cases hi : x.handlers.lookup tag with
  | none =>
    refine ⟨.ok, fun _ => rfl, ?_⟩
    simp only [Xray.delUsers, hi, Installation.delUsers,
      Installation.updateUsers_of_none (h.lookup_eq_none hi)]
    exact ⟨h, rfl⟩
  | some i =>
    obtain ⟨w, hnode, himage⟩ := h.exists_of_lookup hi
    obtain ⟨result, hok, hcall⟩ := Installation.exists_updateUsers_eq hnode
      (upTo users fail).2.isNone (f := (· \ uuids users))
      (w := w \ uuids (upTo users fail).1)
      (fun hnone => by rw [upTo_fst_of_snd_eq_none (Option.isNone_iff_eq_none.mp hnone)])
    refine ⟨result, fun hf => hok (Option.isNone_iff_eq_none.mpr hf), ?_⟩
    simp only [Xray.delUsers, hi, Installation.delUsers, hcall]
    refine ⟨h.insert (by rw [foldl_delUser]) ?_, Option.isNone_map⟩
    rw [Finset.image_sdiff _ _ (userTag_right_injective tag), image_userTag_uuids, ← himage]
    ext k
    simp

end Xray

end Tox.Core
