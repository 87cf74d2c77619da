import Lifeline.Proofs.Sync.Notepad
import Mathlib.Data.List.Induction

/-! What the next reading may do.

A budget keeps the number of readings in a row and the time of the last one. Entries that keep to a
budget, one after the other, keep their readings apart and few. The times of readings are known from a
host that logs when its analyzer is started. -/

set_option autoImplicit false

namespace Lifeline

/-- The readings in a row that count, and when the last one started unless the engine has been resumed
since. -/
structure Budget where
  spent : Nat
  last : Option Nat

namespace Budget

inductive Entry where
  | read (started : Nat)
  | shown
  | turnedAway
  | resumed
  deriving DecidableEq, Repr

def add (budget : Budget) : Entry → Budget
  | .read started => ⟨budget.spent + 1, some started⟩
  | .shown | .turnedAway => ⟨0, budget.last⟩
  | .resumed => ⟨0, none⟩

def after (budget : Budget) (entries : List Entry) : Budget := entries.foldl add budget

def Admits (config : Config) (budget : Budget) : Entry → Prop
  | .read started => budget.spent < config.maxParseAttempts ∧
      ∀ earlier ∈ budget.last, earlier + config.minParseInterval ≤ started
  | .turnedAway => config.maxParseAttempts ≤ budget.spent
  | .shown | .resumed => True

def AdmitsAll (config : Config) : Budget → List Entry → Prop
  | _, [] => True
  | budget, entry :: rest => budget.Admits config entry ∧ (budget.add entry).AdmitsAll config rest

variable {config : Config} {budget : Budget} {entries : List Entry}

theorem after_append (budget : Budget) (first second : List Entry) :
    budget.after (first ++ second) = (budget.after first).after second := List.foldl_append

theorem admitsAll_append (budget : Budget) (first second : List Entry) :
    budget.AdmitsAll config (first ++ second) ↔
      budget.AdmitsAll config first ∧ (budget.after first).AdmitsAll config second := by
  induction first generalizing budget with
  | nil => exact (and_iff_right trivial).symm
  | cons entry rest ih =>
    rw [List.cons_append, AdmitsAll, AdmitsAll, ih, and_assoc]
    rfl

/-- A reading keeps its distance from an earlier one as long as the engine is not resumed. -/
theorem spaced_of_admitsAll {earlier started : Nat} {between rest : List Entry}
    (last : budget.last = some earlier) (unresumed : .resumed ∉ between)
    (admits : budget.AdmitsAll config (between ++ .read started :: rest)) :
    earlier + config.minParseInterval ≤ started := by
  induction between generalizing budget earlier with
  | nil => exact admits.1.2 earlier last
  | cons entry between ih =>
    have unresumed' : .resumed ∉ between := fun resumed => unresumed (.tail _ resumed)
    cases entry with
    | read second =>
      have first := admits.1.2 earlier last
      have further := ih rfl unresumed' admits.2
      omega
    | shown =>
      have kept : (budget.add .shown).last = some earlier := last
      exact ih kept unresumed' admits.2
    | turnedAway =>
      have kept : (budget.add .turnedAway).last = some earlier := last
      exact ih kept unresumed' admits.2
    | resumed => exact absurd List.mem_cons_self unresumed

theorem length_of_admitsAll {times : List Nat} {rest : List Entry}
    (admits : budget.AdmitsAll config (times.map .read ++ rest)) :
    times.length ≤ config.maxParseAttempts - budget.spent := by
  induction times generalizing budget with
  | nil => exact Nat.zero_le _
  | cons started times ih =>
    have few := admits.1.1
    have later : times.length ≤ config.maxParseAttempts - (budget.spent + 1) := ih admits.2
    rw [List.length_cons]
    omega

theorem spent_after_reads (budget : Budget) (times : List Nat) :
    (budget.after (times.map .read)).spent = budget.spent + times.length := by
  induction times generalizing budget with
  | nil => rfl
  | cons started times ih =>
    have later : (budget.after ((started :: times).map .read)).spent =
        budget.spent + 1 + times.length := ih (budget.add (.read started))
    rw [later, List.length_cons]
    omega

theorem exists_reads (entries : List Entry) :
    ∃ times : List Nat, times.map .read <:+ entries ∧
      times.length = (after ⟨0, none⟩ entries).spent := by
  induction entries using List.reverseRecOn with
  | nil => exact ⟨[], List.nil_suffix, rfl⟩
  | append_singleton entries entry ih =>
    rw [after_append]
    cases entry with
    | read started =>
      obtain ⟨times, ⟨before, same⟩, spent⟩ := ih
      refine ⟨times ++ [started], ⟨before, ?_⟩, ?_⟩
      · rw [List.map_append, ← List.append_assoc, same]
        rfl
      · rw [List.length_append, spent]
        rfl
    | shown | turnedAway | resumed => exact ⟨[], List.nil_suffix, rfl⟩

theorem length_of_infix {times : List Nat} (admits : budget.AdmitsAll config entries)
    (row : times.map .read <:+: entries) : times.length ≤ config.maxParseAttempts := by
  obtain ⟨before, after, rfl⟩ := row
  rw [List.append_assoc, admitsAll_append] at admits
  exact Nat.le_trans (length_of_admitsAll admits.2) (Nat.sub_le _ _)

end Budget

/-! ## Surroundings in which time passes -/

def Host.Returns {σ α : Type} (host : Host σ) (call : Query σ α) : Prop :=
  ∀ world, host.now world ≤ host.now (call world).2 ∧ ∀ breakdown, (call world).1 ≠ .error breakdown

def Host.Concludes {σ : Type} (host : Host σ) (call : Command σ) : Prop :=
  ∀ world, host.now world ≤ host.now (call world).2 ∧
    ∀ breakdown, (call world).1 ≠ .error (.broken breakdown)

/-- A host with a clock that never goes back, none of whose calls breaks down. What it is asked to do it
can refuse, and its analyzer can do anything. -/
structure Host.Steady {σ : Type} (host : Host σ) : Prop where
  analyze (source : String) (world : σ) : host.now world ≤ host.now (host.analyze source world).2
  code : host.Returns host.code
  setCode (text : String) : host.Concludes (host.setCode text)
  cursor : host.Returns host.cursor
  setCursor (selection : Selection) : host.Returns (host.setCursor selection)
  board : host.Returns host.board
  applyBoard (board : Storyboard) : host.Concludes (host.applyBoard board)
  refresh : host.Concludes host.refresh
  notify (notification : Notification) : host.Returns (host.notify notification)
  drainEvents : host.Returns host.drainEvents

/-- A host on which a log is kept of the times at which its analyzer is started. -/
structure Host.Logs {σ : Type} (host : Host σ) (starts : σ → List Nat) : Prop where
  analyze (source : String) (world : σ) :
    starts (host.analyze source world).2 = starts world ++ [host.now world]
  code (world : σ) : starts (host.code world).2 = starts world
  setCode (text : String) (world : σ) : starts (host.setCode text world).2 = starts world
  cursor (world : σ) : starts (host.cursor world).2 = starts world
  setCursor (selection : Selection) (world : σ) :
    starts (host.setCursor selection world).2 = starts world
  board (world : σ) : starts (host.board world).2 = starts world
  applyBoard (board : Storyboard) (world : σ) : starts (host.applyBoard board world).2 = starts world
  refresh (world : σ) : starts (host.refresh world).2 = starts world
  notify (notification : Notification) (world : σ) :
    starts (host.notify notification world).2 = starts world
  drainEvents (world : σ) : starts (host.drainEvents world).2 = starts world

def Host.logged {σ : Type} (host : Host σ) : Host (σ × List Nat) :=
  let query {α : Type} (call : Query σ α) : Query (σ × List Nat) α := fun world =>
    ((call world.1).1, (call world.1).2, world.2)
  let command (call : Command σ) : Command (σ × List Nat) := fun world =>
    ((call world.1).1, (call world.1).2, world.2)
  { now := fun world => host.now world.1
    analyze := fun source world =>
      ((host.analyze source world.1).1, (host.analyze source world.1).2,
        world.2 ++ [host.now world.1])
    code := query host.code
    setCode := fun text => command (host.setCode text)
    cursor := query host.cursor
    setCursor := fun selection => query (host.setCursor selection)
    board := query host.board
    applyBoard := fun board => command (host.applyBoard board)
    refresh := command host.refresh
    notify := fun notification => query (host.notify notification)
    drainEvents := query host.drainEvents }

theorem Host.logs_logged {σ : Type} (host : Host σ) : host.logged.Logs Prod.snd where
  analyze _ _ := rfl
  code _ := rfl
  setCode _ _ := rfl
  cursor _ := rfl
  setCursor _ _ := rfl
  board _ := rfl
  applyBoard _ _ := rfl
  refresh _ := rfl
  notify _ _ := rfl
  drainEvents _ := rfl

theorem Host.Steady.logged {σ : Type} {host : Host σ} (steady : host.Steady) :
    host.logged.Steady where
  analyze source world := steady.analyze source world.1
  code world := steady.code world.1
  setCode text world := steady.setCode text world.1
  cursor world := steady.cursor world.1
  setCursor selection world := steady.setCursor selection world.1
  board world := steady.board world.1
  applyBoard board world := steady.applyBoard board world.1
  refresh world := steady.refresh world.1
  notify notification world := steady.notify notification world.1
  drainEvents world := steady.drainEvents world.1

theorem Notepad.steady_host {analyze : String → Query Notepad Analysis}
    (later : ∀ source pad, pad.time ≤ (analyze source pad).2.time) : (host analyze).Steady where
  analyze := later
  code _ := ⟨Nat.le_refl _, nofun⟩
  setCode _ _ := ⟨Nat.le_refl _, nofun⟩
  cursor _ := ⟨Nat.le_refl _, nofun⟩
  setCursor _ _ := ⟨Nat.le_refl _, nofun⟩
  board _ := ⟨Nat.le_refl _, nofun⟩
  applyBoard _ _ := ⟨Nat.le_refl _, nofun⟩
  refresh _ := ⟨Nat.le_refl _, nofun⟩
  notify _ _ := ⟨Nat.le_refl _, nofun⟩
  drainEvents _ := ⟨Nat.le_refl _, nofun⟩

end Lifeline
