import Showcase.Sample.Id

namespace Showcase

structure SampleEntry where
  id : SampleId
  title : String
  sourceText : String
  expectedOutput : String
deriving DecidableEq

structure SampleSummary where
  id : SampleId
  title : String
deriving DecidableEq

def SampleEntry.summary (entry : SampleEntry) : SampleSummary := ⟨entry.id, entry.title⟩

end Showcase
