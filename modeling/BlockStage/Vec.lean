/-!
Pairs of coordinates, over any numbers. Arithmetic goes coordinate by coordinate.
-/

namespace BlockStage

structure Vec (α : Type) where
  x : α
  y : α
  deriving DecidableEq, Repr

namespace Vec

variable {α : Type}

def map (f : α → α) (v : Vec α) : Vec α := ⟨f v.x, f v.y⟩

def zip (f : α → α → α) (v w : Vec α) : Vec α := ⟨f v.x w.x, f v.y w.y⟩

def both (a : α) : Vec α := ⟨a, a⟩

instance [Add α] : Add (Vec α) := ⟨zip (· + ·)⟩

instance [Sub α] : Sub (Vec α) := ⟨zip (· - ·)⟩

def scale [Mul α] (v : Vec α) (k : α) : Vec α := v.map (· * k)

def divide [Div α] (v : Vec α) (k : α) : Vec α := v.map (· / k)

/-- Each coordinate times its own factor. -/
def stretch [Mul α] (v w : Vec α) : Vec α := zip (· * ·) v w

/-- The same point with the vertical axis turned over. -/
def flip [Neg α] (v : Vec α) : Vec α := ⟨v.x, -v.y⟩

@[simp] theorem add_x [Add α] (v w : Vec α) : (v + w).x = v.x + w.x := rfl

@[simp] theorem add_y [Add α] (v w : Vec α) : (v + w).y = v.y + w.y := rfl

@[simp] theorem sub_x [Sub α] (v w : Vec α) : (v - w).x = v.x - w.x := rfl

@[simp] theorem sub_y [Sub α] (v w : Vec α) : (v - w).y = v.y - w.y := rfl

@[simp] theorem flip_x [Neg α] (v : Vec α) : v.flip.x = v.x := rfl

@[simp] theorem flip_y [Neg α] (v : Vec α) : v.flip.y = -v.y := rfl

end Vec

end BlockStage
