import Mathlib.Data.List.TakeDrop
import Tox.Panel.Client

/-!
# The DNS file of the xray core

The xray core reads a DNS configuration from a file when it starts. A node can bring its own one,
which `saveDnsConfig` writes into this file. It reads the file, and if the content differs it
decodes the new text, builds the configuration to see whether the library accepts it, clears the
file and writes it.

There are two variables `err`. The outer one is returned at the end and keeps the error of the
decoding. That of `Build` is declared anew, and the errors of `Truncate` and `WriteFile` go there:
they are logged and forgotten. A text that cannot be decoded is not rejected either, as long as what
could be decoded of it builds. So a failed write is reported as a success, and a text that is
written as an error.
-/

namespace Tox.Core.XrayDns

open Tox.Panel

/-- The library for DNS configurations. -/
structure DnsLibrary (γ : Type) where
  /-- `json.Unmarshal`, which may fail after it has decoded some of the members. -/
  unmarshal : Body → γ × Option String
  unmarshal_nil : (unmarshal []).2 ≠ none
  /-- The error of `Build`. -/
  build : γ → Option String
  /-- A configuration without members. -/
  empty : γ

/-- How `os.WriteFile` ends: well, before it has opened the file, or after some bytes. -/
inductive WriteOutcome
  | done
  | notOpened (err : String)
  | stopped (n : ℕ) (err : String)

/-- How the calls of the operating system end. -/
structure DnsSteps where
  readFile : Option String := none
  truncate : Option String := none
  writeFile : WriteOutcome := .done

namespace DnsSteps

/-- The file after `os.Truncate`. -/
def cleared (steps : DnsSteps) (file : Body) : Body :=
  match steps.truncate with
  | none => []
  | some _ => file

/-- The file after `os.Truncate` and `os.WriteFile`. -/
def rewritten (steps : DnsSteps) (dns file : Body) : Body :=
  match steps.writeFile with
  | .done => dns
  | .notOpened _ => steps.cleared file
  | .stopped n _ => dns.take n

/-- The whole text is written. -/
def Writes (steps : DnsSteps) (dns : Body) : Prop :=
  match steps.writeFile with
  | .done => True
  | .notOpened _ => False
  | .stopped n _ => dns.length ≤ n

/-- The file is as it was. -/
def Keeps (steps : DnsSteps) (dns file : Body) : Prop :=
  match steps.writeFile with
  | .done => False
  | .notOpened _ => steps.truncate ≠ none ∨ file = []
  | .stopped n _ => dns.take n = file

end DnsSteps

section Save

variable {γ : Type} (lib : DnsLibrary γ) (steps : DnsSteps) (dns file : Body)

/-- `saveDnsConfig`: the file afterwards and the error. -/
def saveDnsConfig : Body × Option String :=
  match steps.readFile with
  | some err => (file, some err)
  | none =>
    if file = dns then (file, none)
    else
      -- the outer `err`, which nothing sets afterwards
      let (coreDnsConfig, err) := lib.unmarshal dns
      match lib.build coreDnsConfig with
      | some err => (file, some err)
      | none => (steps.rewritten dns file, err)

/-- The text can be decoded. -/
def Decodes : Prop := (lib.unmarshal dns).2 = none

instance : Decidable (Decodes lib dns) := inferInstanceAs (Decidable (_ = none))

/-- An update is all or nothing: after an error the file is as it was, otherwise it has the new
text, and a text that cannot be decoded does not get into it. -/
structure AllOrNothing (result : Body × Option String) : Prop where
  error : result.2 ≠ none → result.1 = file
  ok : result.2 = none → result.1 = dns
  decodes : ¬ Decodes lib dns → result.1 = dns → file = dns

/-- The call comes to `os.Truncate`. -/
def Rewrites : Prop :=
  steps.readFile = none ∧ file ≠ dns ∧ lib.build (lib.unmarshal dns).1 = none

end Save

section Steps

variable {γ : Type} {lib : DnsLibrary γ} {steps : DnsSteps} {dns file : Body}

theorem saveDnsConfig_of_rewrites (h : Rewrites lib steps dns file) :
    saveDnsConfig lib steps dns file = (steps.rewritten dns file, (lib.unmarshal dns).2) := by
  obtain ⟨hread, hne, hbuild⟩ := h
  rw [saveDnsConfig, hread]
  dsimp only
  rw [if_neg hne, hbuild]

/-- A call that does not come to `os.Truncate` leaves the file, and has no error only if the file
has the text already. -/
theorem saveDnsConfig_of_not_rewrites (h : ¬ Rewrites lib steps dns file) :
    (saveDnsConfig lib steps dns file).1 = file ∧
      ((saveDnsConfig lib steps dns file).2 = none → file = dns) := by
  rw [saveDnsConfig]
  rcases hread : steps.readFile with _ | err
  · dsimp only
    by_cases heq : file = dns
    · rw [if_pos heq]
      exact ⟨rfl, fun _ => heq⟩
    · rw [if_neg heq]
      rcases hbuild : lib.build (lib.unmarshal dns).1 with _ | err
      · exact absurd ⟨hread, heq, hbuild⟩ h
      · exact ⟨rfl, nofun⟩
  · exact ⟨rfl, nofun⟩

/-- A text that can be decoded is in the file if and only if it is written. -/
theorem rewritten_eq_dns_iff (hdecodes : Decodes lib dns) (hne : file ≠ dns) :
    steps.rewritten dns file = dns ↔ steps.Writes dns := by
  rw [DnsSteps.rewritten, DnsSteps.Writes]
  rcases steps.writeFile with _ | err | ⟨n, err⟩
  · exact iff_of_true rfl trivial
  · refine iff_of_false (fun h : steps.cleared file = dns => ?_) id
    rw [DnsSteps.cleared] at h
    rcases htruncate : steps.truncate with _ | err'
    · rw [htruncate] at h
      subst h
      exact lib.unmarshal_nil hdecodes
    · rw [htruncate] at h
      exact hne h
  · exact List.take_eq_self_iff dns

theorem rewritten_eq_file_iff (hne : file ≠ dns) :
    steps.rewritten dns file = file ↔ steps.Keeps dns file := by
  rw [DnsSteps.rewritten, DnsSteps.Keeps]
  rcases steps.writeFile with _ | err | ⟨n, err⟩
  · exact iff_of_false hne.symm id
  · rw [DnsSteps.cleared]
    rcases steps.truncate with _ | err'
    · exact ⟨fun h => Or.inr h.symm, fun h => h.elim (fun h => absurd rfl h) Eq.symm⟩
    · exact iff_of_true rfl (Or.inl nofun)
  · exact Iff.rfl

end Steps

/-- **When an update of the DNS file is all or nothing.** For every outcome of the steps it is so if
and only if the call does not come to `os.Truncate`, or the text can be decoded and is written, or
it cannot be decoded and the steps that follow leave the file as it is. -/
theorem saveDnsConfig_allOrNothing_iff {γ : Type} (lib : DnsLibrary γ) (steps : DnsSteps)
    (dns file : Body) :
    AllOrNothing lib dns file (saveDnsConfig lib steps dns file) ↔
      (Rewrites lib steps dns file →
        if Decodes lib dns then steps.Writes dns else steps.Keeps dns file) := by
  by_cases h : Rewrites lib steps dns file
  · have hne : file ≠ dns := h.2.1
    rw [saveDnsConfig_of_rewrites h, forall_prop_of_true h]
    by_cases hdecodes : Decodes lib dns
    · rw [if_pos hdecodes, ← rewritten_eq_dns_iff hdecodes hne]
      refine ⟨fun hall => hall.ok hdecodes,
        fun heq => ⟨fun herr => ?_, fun _ => heq, fun hnot => ?_⟩⟩
      · exact absurd hdecodes herr
      · exact absurd hdecodes hnot
    · rw [if_neg hdecodes, ← rewritten_eq_file_iff hne]
      refine ⟨fun hall => hall.error hdecodes, fun heq => ⟨fun _ => heq, fun hnone => ?_, ?_⟩⟩
      · exact absurd hnone hdecodes
      · exact fun _ hdns => heq.symm.trans hdns
  · obtain ⟨hfile, hok⟩ := saveDnsConfig_of_not_rewrites h
    refine iff_of_true ⟨fun _ => hfile, fun hnone => ?_, fun _ hdns => ?_⟩ fun h' => absurd h' h
    · rw [hfile, hok hnone]
    · rw [← hdns, hfile]

/-- A library that decodes one text only and builds every configuration. -/
def emptyObject : DnsLibrary Unit where
  unmarshal data :=
    ((), if data = [0x7b, 0x7d] then none else some "unexpected end of JSON input")
  unmarshal_nil := by decide
  build _ := none
  empty := ()

/-- **Updates by halves.** A text that cannot be decoded is written, and an error is returned. If
`os.WriteFile` fails after `os.Truncate`, the file is empty, and there is no error. -/
theorem saveDnsConfig_not_allOrNothing :
    (saveDnsConfig emptyObject {} [0x7b] [0x7b, 0x7d] =
        ([0x7b], some "unexpected end of JSON input") ∧
      ¬ AllOrNothing emptyObject [0x7b] [0x7b, 0x7d]
        (saveDnsConfig emptyObject {} [0x7b] [0x7b, 0x7d])) ∧
    saveDnsConfig emptyObject { writeFile := .notOpened "too many open files" } [0x7b, 0x7d]
        [0x7b] = ([], none) ∧
      ¬ AllOrNothing emptyObject [0x7b, 0x7d] [0x7b] (saveDnsConfig emptyObject
        { writeFile := .notOpened "too many open files" } [0x7b, 0x7d] [0x7b]) :=
  ⟨⟨rfl, fun h => absurd (h.error (by decide)) (by decide)⟩,
    rfl, fun h => absurd (h.ok (by decide)) (by decide)⟩

/-! ### The next start -/

section Start

variable {γ : Type} (lib : DnsLibrary γ)

/-- The DNS configuration in `getCore`. A file that cannot be decoded gives an empty one. -/
def dnsAtStart (file : Body) : γ :=
  match lib.unmarshal file with
  | (coreDnsConfig, none) => coreDnsConfig
  | (_, some _) => lib.empty

/-- The configuration that is read at the next start builds; `getCore` panics if it does not. What
else the start depends on is left out. -/
def BuildsAtStart (file : Body) : Prop := lib.build (dnsAtStart lib file) = none

/-- The file after a run of updates. -/
def saves (updates : List (DnsSteps × Body)) (file : Body) : Body :=
  updates.foldl (fun file update => (saveDnsConfig lib update.1 update.2 file).1) file

end Start

section Start

variable {γ : Type} {lib : DnsLibrary γ}

/-- A text whose decodable part builds. -/
theorem buildsAtStart_of_build (hempty : lib.build lib.empty = none) {file : Body}
    (h : Decodes lib file → lib.build (lib.unmarshal file).1 = none) : BuildsAtStart lib file := by
  rw [BuildsAtStart, dnsAtStart]
  rw [Decodes] at h
  rcases hunmarshal : lib.unmarshal file with ⟨coreDnsConfig, _ | err⟩
  · rw [hunmarshal] at h
    exact h rfl
  · exact hempty

/-- One update whose write does not stop halfway. -/
theorem buildsAtStart_saveDnsConfig (hempty : lib.build lib.empty = none) {steps : DnsSteps}
    {dns file : Body} (hwrite : ∀ n err, steps.writeFile ≠ .stopped n err)
    (h : BuildsAtStart lib file) :
    BuildsAtStart lib (saveDnsConfig lib steps dns file).1 := by
  by_cases hrewrites : Rewrites lib steps dns file
  · rw [saveDnsConfig_of_rewrites hrewrites]
    dsimp only [DnsSteps.rewritten]
    rcases hfile : steps.writeFile with _ | err | ⟨n, err⟩
    · exact buildsAtStart_of_build hempty fun _ => hrewrites.2.2
    · dsimp only [DnsSteps.cleared]
      rcases steps.truncate with _ | err'
      · exact buildsAtStart_of_build hempty fun hnil => absurd hnil lib.unmarshal_nil
      · exact h
    · exact absurd hfile (hwrite n err)
  · rwa [(saveDnsConfig_of_not_rewrites hrewrites).1]

/-- **The file after updates.** Updates whose writes do not stop halfway never leave a file behind
whose configuration does not build at the next start. -/
theorem buildsAtStart_saves (hempty : lib.build lib.empty = none) {updates : List (DnsSteps × Body)}
    (hwrite : ∀ update ∈ updates, ∀ n err, update.1.writeFile ≠ .stopped n err) {file : Body}
    (h : BuildsAtStart lib file) : BuildsAtStart lib (saves lib updates file) := by
  induction updates generalizing file with
  | nil => exact h
  | cons update updates ih =>
    obtain ⟨hfirst, hrest⟩ := List.forall_mem_cons.mp hwrite
    exact ih hrest (buildsAtStart_saveDnsConfig hempty hfirst h)

end Start

/-- A text that cannot be decoded, and a file that cannot be opened after it has been emptied. -/
theorem buildsAtStart_saves_emptyObject :
    BuildsAtStart emptyObject (saves emptyObject
      [({}, [0x7b]), ({ writeFile := .notOpened "too many open files" }, [0x7b, 0x7d])] []) := by
  refine buildsAtStart_saves rfl (List.forall_mem_cons.mpr ⟨fun n err h => ?_,
    List.forall_mem_singleton.mpr fun n err h => ?_⟩) rfl
  · cases h
  · cases h

end Tox.Core.XrayDns
