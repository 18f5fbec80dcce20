import ProjectOutline.FileTree
import ProjectOutline.Host

/-!
A model of a machine: a tree of files, a clock that stands still, an environment, and all that was
said.
-/

namespace ProjectOutline

/-- A model of a machine. -/
structure World where
  tree : FileTree
  clock : Timestamp
  settings : List (String × String)
  /-- What was said, last first. -/
  said : List Emission

namespace World

def host : Host (StateM World) where
  answer c := fun w =>
    let (answer, tree) := w.tree.answer c
    (answer, { w with tree := tree })
  say e := fun w => ((), { w with said := e :: w.said })
  here := fun w => (.ok w.tree.herePath, w)
  canonical? path := fun w => (w.tree.canonical? path, w)
  setting? name := fun w => (w.settings.lookup name, w)
  now := fun w => (w.clock, w)
  makeDirectory path := fun w =>
    let (result, tree) := w.tree.ensureDirectory path
    (result.mapError Refusal.message, { w with tree := tree })

def emissions (w : World) : List Emission := w.said.reverse

end World

end ProjectOutline
