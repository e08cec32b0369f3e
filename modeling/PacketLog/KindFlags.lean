import PacketLog.Packet

/-!
# KindFlags

Which kinds of packets are logged in which direction.  A toggle sets one kind, in both directions
or in those it names, and leaves everything else alone.
-/

namespace PacketLog

/-- Which kinds are logged in which direction. -/
structure KindFlags where
  allows : PacketKind → Direction → Bool

/-- A setting for one kind. -/
inductive KindToggle where
  | both (enabled : Bool)
  | perDirection (inbound outbound : Option Bool)
deriving DecidableEq, Repr

/-- What the toggle sets in a direction, if it sets anything. -/
def KindToggle.sets? : KindToggle → Direction → Option Bool
  | .both b, _                 => some b
  | .perDirection i _, .inbound  => i
  | .perDirection _ o, .outbound => o

namespace KindFlags

/-- Everything is logged, or nothing. -/
def uniform (enabled : Bool) : KindFlags := ⟨fun _ _ => enabled⟩

/-- Set one kind in one direction. -/
def set (f : KindFlags) (kind : PacketKind) (dir : Direction) (enabled : Bool) : KindFlags :=
  ⟨fun k d => if k = kind && d = dir then enabled else f.allows k d⟩

/-- Set one kind as the toggle says. -/
def apply (f : KindFlags) (kind : PacketKind) (toggle : KindToggle) : KindFlags :=
  ⟨fun k d => if k = kind then (toggle.sets? d).getD (f.allows k d) else f.allows k d⟩

/-- Nothing is logged. -/
def noneEnabled (f : KindFlags) : Bool :=
  PacketKind.all.all fun k => !f.allows k .inbound && !f.allows k .outbound

theorem allows_apply (f : KindFlags) (kind : PacketKind) (t : KindToggle) (k : PacketKind)
    (d : Direction) :
    (f.apply kind t).allows k d
      = if k = kind then (t.sets? d).getD (f.allows k d) else f.allows k d := rfl

end KindFlags

end PacketLog
