import FlowFacts.Analysis.Walk
import FlowFacts.Settings.Load

namespace FlowFacts

/-- Settings that are loaded once and then used for every body. -/
structure Session where
  settings : Settings

namespace Session

def ofFile (file : String) (content : Option ByteArray) : Except LoadError Session :=
  (Settings.ofFile file content).map (⟨·⟩)

def analyze (s : Session) (b : Body) : Except Failure Analysis := b.analyze s.settings.flow

end Session
end FlowFacts
