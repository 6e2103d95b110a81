import ArRobotCode.Levels.Repository

namespace ArRobotCode

open Swift

/-- `level` is the value of the subject, the level that was published last. -/
structure LevelViewModel where
  levelsRepository : LevelsRepository
  levelAt : Int
  level : DataLevel

namespace LevelViewModel

def onRepository {α : Type} (x : Method LevelsRepository α) : Method LevelViewModel α :=
  within (·.levelsRepository) (fun r v => { v with levelsRepository := r }) x

def init (repository : LevelsRepository) (at' : Int) : Except Trap LevelViewModel :=
  match (LevelsRepository.getLevel at').run repository with
  | .ok l r => return { levelsRepository := r, levelAt := at', level := l }
  | .error trap _ => throw trap

/-- The shape of every edit: a change in place, the publication, and the update of the repository. -/
def edited (change : Method DataLevel Unit) : Method LevelViewModel Unit := do
  let at' := (← get).levelAt
  onRepository (LevelsRepository.changeInPlace at' change)
  let l ← onRepository (LevelsRepository.getLevel at')
  modify fun v => { v with level := l }
  onRepository (LevelsRepository.triggerUpdate at')

def editedUnless (same : DataLevel → Prop) [DecidablePred same] (change : Method DataLevel Unit) :
    Method LevelViewModel Unit := do
  if same (← onRepository (LevelsRepository.getLevel (← get).levelAt)) then return
  edited change

def swapTile (at' : Int) : Method LevelViewModel Unit := edited (DataLevel.editTile DataTile.swap at')

def swipeLeftTile (at' : Int) : Method LevelViewModel Unit := edited (DataLevel.editTile DataTile.cycleRight at')

def swipeRightTile (at' : Int) : Method LevelViewModel Unit := edited (DataLevel.editTile DataTile.cycleLeft at')

def setToStartTile (at' : Int) : Method LevelViewModel Unit := edited (DataLevel.editTile DataTile.setToStart at')

def setName (newName : String) : Method LevelViewModel Unit := do
  if newName = "" then return
  edited (DataLevel.setName newName)

def setHeight (newHeight : String) : Method LevelViewModel Unit :=
  editedUnless (fun l => some l.height = parseInt newHeight) do
    DataLevel.setHeight (← unwrap (parseInt newHeight))

def setWidth (newWidth : String) : Method LevelViewModel Unit :=
  editedUnless (fun l => some l.width = parseInt newWidth) do
    DataLevel.setWidth (← unwrap (parseInt newWidth))

def setPublic (newPublic : Bool) : Method LevelViewModel Unit :=
  editedUnless (fun l => l.isPublic = newPublic) (DataLevel.setPublic newPublic)

def setOrder (newOrder : Int) : Method LevelViewModel Unit :=
  editedUnless (fun l => l.order = newOrder) (DataLevel.setOrder newOrder)

def setChapter [CanonicalForm] (newChapter : String) : Method LevelViewModel Unit :=
  editedUnless (fun l => equal l.chapter newChapter) (DataLevel.setChapter newChapter)

end LevelViewModel

inductive Edit where
  | swapTile (at' : Int)
  | swipeLeftTile (at' : Int)
  | swipeRightTile (at' : Int)
  | setToStartTile (at' : Int)
  | setName (newName : String)
  | setWidth (newWidth : String)
  | setHeight (newHeight : String)
  | setPublic (newPublic : Bool)
  | setOrder (newOrder : Int)
  | setChapter (newChapter : String)
deriving DecidableEq, Repr

namespace Edit

def perform [CanonicalForm] : Edit → Method LevelViewModel Unit
  | swapTile at' => LevelViewModel.swapTile at'
  | swipeLeftTile at' => LevelViewModel.swipeLeftTile at'
  | swipeRightTile at' => LevelViewModel.swipeRightTile at'
  | setToStartTile at' => LevelViewModel.setToStartTile at'
  | setName newName => LevelViewModel.setName newName
  | setWidth newWidth => LevelViewModel.setWidth newWidth
  | setHeight newHeight => LevelViewModel.setHeight newHeight
  | setPublic newPublic => LevelViewModel.setPublic newPublic
  | setOrder newOrder => LevelViewModel.setOrder newOrder
  | setChapter newChapter => LevelViewModel.setChapter newChapter

def Skipped [CanonicalForm] (l : DataLevel) : Edit → Prop
  | swapTile _ | swipeLeftTile _ | swipeRightTile _ | setToStartTile _ => False
  | setName newName => newName = ""
  | setWidth newWidth => some l.width = parseInt newWidth
  | setHeight newHeight => some l.height = parseInt newHeight
  | setPublic newPublic => l.isPublic = newPublic
  | setOrder newOrder => l.order = newOrder
  | setChapter newChapter => equal l.chapter newChapter

def Fits (l : DataLevel) : Edit → Prop
  | swapTile at' | swipeLeftTile at' | swipeRightTile at' | setToStartTile at' => 0 ≤ at' ∧ at' < l.tiles.length
  | setWidth newWidth => ∃ n ∈ parseInt newWidth, DataLevel.TileCount (n * l.height)
  | setHeight newHeight => ∃ n ∈ parseInt newHeight, DataLevel.TileCount (l.width * n)
  | setName _ | setPublic _ | setOrder _ | setChapter _ => True

def change : Edit → Method DataLevel Unit
  | swapTile at' => DataLevel.editTile DataTile.swap at'
  | swipeLeftTile at' => DataLevel.editTile DataTile.cycleRight at'
  | swipeRightTile at' => DataLevel.editTile DataTile.cycleLeft at'
  | setToStartTile at' => DataLevel.editTile DataTile.setToStart at'
  | setName newName => DataLevel.setName newName
  | setWidth newWidth => do DataLevel.setWidth (← unwrap (parseInt newWidth))
  | setHeight newHeight => do DataLevel.setHeight (← unwrap (parseInt newHeight))
  | setPublic newPublic => DataLevel.setPublic newPublic
  | setOrder newOrder => DataLevel.setOrder newOrder
  | setChapter newChapter => DataLevel.setChapter newChapter

def applied (l : DataLevel) : Edit → DataLevel
  | swapTile at' => { l with tiles := l.tiles.modify at'.toNat DataTile.swap }
  | swipeLeftTile at' => { l with tiles := l.tiles.modify at'.toNat DataTile.cycleRight }
  | swipeRightTile at' => { l with tiles := l.tiles.modify at'.toNat DataTile.cycleLeft }
  | setToStartTile at' => { l with tiles := l.tiles.modify at'.toNat DataTile.setToStart }
  | setName newName => { l with name := newName }
  | setWidth newWidth => (parseInt newWidth).elim l fun n =>
    { l with width := n, tiles := List.replicate (n * l.height).toNat {} }
  | setHeight newHeight => (parseInt newHeight).elim l fun n =>
    { l with height := n, tiles := List.replicate (l.width * n).toNat {} }
  | setPublic newPublic => { l with isPublic := newPublic }
  | setOrder newOrder => { l with order := newOrder }
  | setChapter newChapter => { l with chapter := newChapter }

@[simp] theorem applied_uuid (l : DataLevel) (e : Edit) : (e.applied l).uuid = l.uuid := by
  cases e with
  | setWidth newWidth => cases parsed : parseInt newWidth <;> simp [applied, parsed]
  | setHeight newHeight => cases parsed : parseInt newHeight <;> simp [applied, parsed]
  | _ => rfl

theorem run_editTile {l : DataLevel} {at' : Int} (edit : DataTile → DataTile) (nonneg : 0 ≤ at')
    (bound : at' < l.tiles.length) :
    (DataLevel.editTile edit at').run l = .ok () { l with tiles := l.tiles.modify at'.toNat edit } := by
  obtain ⟨tile, found⟩ := at?_of_bounds nonneg bound
  simp [DataLevel.editTile, EStateM.run_bind, run_subscript_of_some found]

theorem editTile_traps {l : DataLevel} {at' : Int} (edit : DataTile → DataTile)
    (outOfRange : ¬ (0 ≤ at' ∧ at' < l.tiles.length)) :
    (DataLevel.editTile edit at').run l = .error .indexOutOfRange l := by
  have missing : at? l.tiles at' = none := by
    rw [← Option.not_isSome_iff_eq_none, at?_isSome_iff]
    exact outOfRange
  simp [DataLevel.editTile, EStateM.run_bind, run_subscript_of_none missing]

theorem run_change {l : DataLevel} {e : Edit} (fits : e.Fits l) : e.change.run l = .ok () (e.applied l) := by
  cases e with
  | swapTile at' | swipeLeftTile at' | swipeRightTile at' | setToStartTile at' => exact run_editTile _ fits.1 fits.2
  | setWidth newWidth =>
    obtain ⟨n, parsed, count⟩ := fits
    simp only [change, EStateM.run_bind, Option.mem_def.mp parsed, run_unwrap_some, DataLevel.run_setWidth count,
      applied, Option.elim_some]
  | setHeight newHeight =>
    obtain ⟨n, parsed, count⟩ := fits
    simp only [change, EStateM.run_bind, Option.mem_def.mp parsed, run_unwrap_some, DataLevel.run_setHeight count,
      applied, Option.elim_some]
  | setName _ | setPublic _ | setOrder _ | setChapter _ => rfl

theorem change_traps {l : DataLevel} {e : Edit} (misfits : ¬ e.Fits l) :
    ∃ trap l', e.change.run l = .error trap l' := by
  cases e with
  | swapTile at' | swipeLeftTile at' | swipeRightTile at' | setToStartTile at' =>
    exact ⟨_, _, editTile_traps _ misfits⟩
  | setWidth newWidth =>
    cases parsed : parseInt newWidth with
    | none => exact ⟨.unexpectedNil, l, by simp [change, parsed, EStateM.run_bind]⟩
    | some n =>
      have bad : ¬ DataLevel.TileCount (n * l.height) := fun count => misfits ⟨n, parsed, count⟩
      simpa [change, parsed, EStateM.run_bind] using DataLevel.setWidth_traps bad
  | setHeight newHeight =>
    cases parsed : parseInt newHeight with
    | none => exact ⟨.unexpectedNil, l, by simp [change, parsed, EStateM.run_bind]⟩
    | some n =>
      have bad : ¬ DataLevel.TileCount (l.width * n) := fun count => misfits ⟨n, parsed, count⟩
      simpa [change, parsed, EStateM.run_bind] using DataLevel.setHeight_traps bad
  | setName _ | setPublic _ | setOrder _ | setChapter _ => exact absurd trivial misfits

end Edit

end ArRobotCode
