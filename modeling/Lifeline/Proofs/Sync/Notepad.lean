import Lifeline.Proofs.Sync.Storing

/-! A notepad: a host that keeps everything in memory and shows that hosts that store exist. -/

set_option autoImplicit false

namespace Lifeline

structure Notepad where
  time : Nat
  text : String
  board : Storyboard
  selection : Selection

namespace Notepad

def held (pad : Notepad) : Contents := ⟨pad.text, pad.board⟩

def host (analyze : String → Query Notepad Analysis) : Host Notepad where
  now pad := pad.time
  analyze := analyze
  code pad := (.ok pad.text, pad)
  setCode text pad := (.ok (), { pad with text := text })
  cursor pad := (.ok pad.selection, pad)
  setCursor selection pad := (.ok (), { pad with selection := selection })
  board pad := (.ok pad.board, pad)
  applyBoard board pad := (.ok (), { pad with board := { board with mode := pad.board.mode } })
  refresh pad := (.ok (), pad)
  notify _ pad := (.ok (), pad)
  drainEvents pad := (.ok (), pad)

theorem stores_host {analyze : String → Query Notepad Analysis}
    (kept : ∀ source pad, (analyze source pad).2.held = pad.held) : (host analyze).Stores held where
  analyze := kept
  code pad := ⟨pad, rfl, rfl⟩
  setCode text pad := ⟨{ pad with text := text }, rfl, rfl⟩
  cursor pad := ⟨pad.selection, pad, rfl, rfl⟩
  setCursor selection pad := ⟨{ pad with selection := selection }, rfl, rfl⟩
  board pad := ⟨pad, rfl, rfl⟩
  applyBoard _ pad := ⟨_, pad.board.mode, rfl, rfl, .inr rfl⟩
  refresh pad := ⟨pad, rfl, rfl⟩
  notify _ pad := ⟨pad, rfl, rfl⟩
  drainEvents pad := ⟨pad, rfl, rfl⟩

def analyzeFor (duration : Nat) (source : String) : Query Notepad Analysis := fun pad =>
  (.ok (analyze source), { pad with time := pad.time + duration })

def opened (config : Config) (text : String) : Session Notepad :=
  ⟨.new config, ⟨0, text, .empty, ⟨0, 0⟩⟩⟩

end Notepad

end Lifeline
