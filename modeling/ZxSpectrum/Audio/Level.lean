/-!
# Beeper levels

The voltages that the four levels of the beeper put on the loudspeaker pin, by board issue, and the sample values made
of them.
-/

namespace ZxSpectrum.Audio

/-- The highest level. -/
def maxLevel : UInt8 := 3

/-- The voltage of each level on boards of issue 2. -/
def voltageIssue2 : Vector Float32 4 := #v[0.39, 0.73, 3.66, 3.79]

/-- The voltage of each level on boards of issue 3. -/
def voltageIssue3 : Vector Float32 4 := #v[0.34, 0.66, 3.56, 3.70]

/-- The largest 16-bit sample. -/
def fullScale : Float32 := 32767

/-- A voltage on the scale on which level 0 is silence and level 3 is the largest sample. -/
def scaled (voltage : Float32) : Float32 :=
  fullScale * (voltage - voltageIssue2[0]) / (voltageIssue2[3] - voltageIssue2[0])

/-- The sample of each level. -/
def samples : Vector Float32 4 := #v[0, scaled voltageIssue2[1], scaled voltageIssue2[2], fullScale]

end ZxSpectrum.Audio
