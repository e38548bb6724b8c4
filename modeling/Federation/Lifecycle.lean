/-!
# Lifecycles

A lifecycle carries the request to stop. A child stops with its parent and can be stopped on its
own, so lifecycles form a tree: a lifecycle is the path of the child numbers that lead to it, and it
has stopped when the path of a stopped one is a beginning of its own.
-/

namespace Federation

abbrev Lifecycle := List Nat

structure Lifecycles where
  stopped : List Lifecycle := []
  children : Nat := 0
  deriving DecidableEq, Repr

namespace Lifecycles

def root : Lifecycle := []

def isStopped (tree : Lifecycles) (lifecycle : Lifecycle) : Bool :=
  tree.stopped.any fun path => path.isPrefixOf lifecycle

def stop (tree : Lifecycles) (lifecycle : Lifecycle) : Lifecycles :=
  { tree with stopped := lifecycle :: tree.stopped }

def child (tree : Lifecycles) (parent : Lifecycle) : Lifecycle × Lifecycles :=
  (parent ++ [tree.children], { tree with children := tree.children + 1 })

theorem isStopped_stop (tree : Lifecycles) (stopped lifecycle : Lifecycle) :
    (tree.stop stopped).isStopped lifecycle =
      (stopped.isPrefixOf lifecycle || tree.isStopped lifecycle) := rfl

end Lifecycles

end Federation
