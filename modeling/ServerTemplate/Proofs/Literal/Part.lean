import ServerTemplate.Template.Lowering

/-!
# Parts of templates

A part of a template begins and ends with a text. Two parts are put behind one another by joining
the last text of the first with the first text of the second, as the source of a template is cut
into texts; so a template may be described by what stands in it, such as `p ++ .text "<b>" ++ q`.
-/

namespace ServerTemplate

/-- A text, or a text with a hole and another part behind it. -/
inductive Part where
  | text (content : String)
  | hole (content : String) (e : Expr) (rest : Part)

namespace Part

/-- The text with which a part begins. -/
def first : Part → String
  | text content | hole content _ _ => content

/-- The texts of a part. -/
def texts : Part → List String
  | text content => [content]
  | hole content _ rest => content :: rest.texts

/-- The expressions in the holes of a part. -/
def holes : Part → List Expr
  | text _ => []
  | hole _ e rest => e :: rest.holes

/-- The template that is made of a part alone. -/
def template (p : Part) : Template := { chunks := p.texts, holes := p.holes }

/-! ### Parts behind one another -/

/-- The part with a text in front. -/
def prepend (front : String) : Part → Part
  | text content => text (front ++ content)
  | hole content e rest => hole (front ++ content) e rest

/-- The part with another behind it. -/
def append : Part → Part → Part
  | text content, q => q.prepend content
  | hole content e rest, q => hole content e (rest.append q)

instance : Append Part := ⟨append⟩

theorem text_append (content : String) (q : Part) : text content ++ q = q.prepend content := rfl

theorem hole_append (content : String) (e : Expr) (rest q : Part) :
    hole content e rest ++ q = hole content e (rest ++ q) := rfl

@[simp] theorem first_prepend (front : String) (p : Part) :
    (p.prepend front).first = front ++ p.first := by
  cases p <;> rfl

@[simp] theorem first_text_append (content : String) (q : Part) :
    (text content ++ q).first = content ++ q.first := first_prepend content q

theorem prepend_prepend (front front' : String) (p : Part) :
    (p.prepend front').prepend front = p.prepend (front ++ front') := by
  cases p <;> simp only [prepend, String.append_assoc]

theorem prepend_append (front : String) (p q : Part) :
    p.prepend front ++ q = (p ++ q).prepend front := by
  cases p with
  | text content => exact (prepend_prepend front content q).symm
  | hole content e rest => rfl

theorem append_assoc (p q r : Part) : p ++ q ++ r = p ++ (q ++ r) := by
  induction p with
  | text content => exact prepend_append content q r
  | hole content e rest ih => exact congrArg (hole content e) ih

/-! ### The conversion of a part -/

/-- Writes what stands behind the first text of a part, from hole number `index` on. -/
def lowerRest (job : Job) (front : String) (index : Nat) : Part → Emit Unit
  | text _ => pure ()
  | hole _ e rest => do
    Emit.hole e (holeLabel front index) (lower job .value (holeLabel front index) e)
    Emit.chunk rest.first
    rest.lowerRest job front (index + 1)

/-- Writes a part from hole number `index` on. -/
def lower (job : Job) (front : String) (index : Nat) (p : Part) : Emit Unit := do
  Emit.chunk p.first
  p.lowerRest job front index

variable {job : Job} {front : String} {index : Nat}

theorem lowerParts_eq (p : Part) :
    lowerParts job front index p.holes p.texts = p.lower job front index := by
  induction p generalizing index with
  | text content => rfl
  | hole content e rest ih =>
    rw [holes, texts, lowerParts, ih]
    rfl

@[simp] theorem lowerRest_prepend (content : String) (p : Part) :
    (p.prepend content).lowerRest job front index = p.lowerRest job front index := by
  cases p <;> rfl

end Part

/-- The state of a conversion behind a part with which the template begins, unless the conversion
fails before. -/
def Job.behind (job : Job) (p : Part) : Option Progress :=
  match (do Emit.enterScope .template; p.lower job "" 0) job.start with
  | .ok _ s => some s
  | .error .. => none

end ServerTemplate
