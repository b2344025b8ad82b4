import MotiAI.Quote

/-!
# The hardcoded quotes

The list `_loadInitialQuotes` puts into an empty quotes box.
-/

namespace MotiAI

def initialQuotes : List Quote := [
  { id := "buddhist_obstacles"
    text := "The obstacle is the path."
    author := "Buddha", tradition := "Buddhist", category := "Obstacles" },
  { id := "buddhist_enlightenment"
    text := "Before enlightenment, chop wood, carry water. After enlightenment, chop wood, carry water."
    author := "Buddha", tradition := "Buddhist", category := "Enlightenment" },
  { id := "buddhist_present"
    text := "The only moment that matters is now."
    author := "Thich Nhat Hanh", tradition := "Buddhist", category := "Present Moment" },
  { id := "buddhist_self_love"
    text := "You yourself, as much as anybody in the entire universe, deserve your love and affection."
    author := "Buddha", tradition := "Buddhist", category := "Self-Love" },
  { id := "buddhist_compassion"
    text := "If you want others to be happy, practice compassion. If you want to be happy, practice compassion."
    author := "Dalai Lama", tradition := "Buddhist", category := "Compassion" },
  { id := "buddhist_peace"
    text := "Peace comes from within. Do not seek it without."
    author := "Buddha", tradition := "Buddhist", category := "Peace" },
  { id := "buddhist_beginner"
    text := "Each morning we are born again. What we do today is what matters most."
    author := "Buddha", tradition := "Buddhist", category := "Beginner's Mind" },
  { id := "buddhist_mindfulness"
    text := "The mind is everything. What you think you become."
    author := "Buddha", tradition := "Buddhist", category := "Mindfulness" },
  { id := "buddhist_compassion_2"
    text := "Compassion is not a relationship between the healer and the wounded. It is a relationship between equals."
    author := "Thich Nhat Hanh", tradition := "Buddhist", category := "Compassion" },
  { id := "buddhist_happiness"
    text := "Happiness is not something ready made. It comes from your own actions."
    author := "Dalai Lama", tradition := "Buddhist", category := "Happiness" },
  { id := "sufi_love"
    text := "The wound is the place where the Light enters you."
    author := "Rumi", tradition := "Sufi", category := "Love" },
  { id := "sufi_possibility"
    text := "What you seek is seeking you."
    author := "Rumi", tradition := "Sufi", category := "Possibility" },
  { id := "sufi_destiny"
    text := "Yesterday I was clever, so I wanted to change the world. Today I am wise, so I am changing myself."
    author := "Rumi", tradition := "Sufi", category := "Destiny" },
  { id := "sufi_heart"
    text := "Let yourself be silently drawn by the strange pull of what you really love. It will not lead you astray."
    author := "Rumi", tradition := "Sufi", category := "Heart" },
  { id := "sufi_wisdom"
    text := "Yesterday I was clever, so I wanted to change the world. Today I am wise, so I am changing myself."
    author := "Rumi", tradition := "Sufi", category := "Wisdom" },
  { id := "sufi_truth"
    text := "Beauty is not in the face; beauty is a light in the heart."
    author := "Khalil Gibran", tradition := "Sufi", category := "Beauty" },
  { id := "taoism_flow"
    text := "Nature does not hurry, yet everything is accomplished."
    author := "Lao Tzu", tradition := "Taoism", category := "Flow" },
  { id := "taoism_acceptance"
    text := "When I let go of what I am, I become what I might be."
    author := "Lao Tzu", tradition := "Taoism", category := "Acceptance" },
  { id := "taoism_harmony"
    text := "The Tao that can be told is not the eternal Tao."
    author := "Lao Tzu", tradition := "Taoism", category := "Harmony" },
  { id := "taoism_wisdom"
    text := "Knowing others is intelligence; knowing yourself is true wisdom."
    author := "Lao Tzu", tradition := "Taoism", category := "Wisdom" },
  { id := "confucianism_learning"
    text := "Learning without thought is labor lost; thought without learning is perilous."
    author := "Confucius", tradition := "Confucianism", category := "Learning" },
  { id := "confucianism_virtue"
    text := "The superior man is modest in his speech, but exceeds in his actions."
    author := "Confucius", tradition := "Confucianism", category := "Virtue" },
  { id := "stoicism_control"
    text := "You have power over your mind – not outside events. Realize this, and you will find strength."
    author := "Marcus Aurelius", tradition := "Stoicism", category := "Control" },
  { id := "stoicism_obstacles"
    text := "The impediment to action advances action. What stands in the way becomes the way."
    author := "Marcus Aurelius", tradition := "Stoicism", category := "Obstacles" },
  { id := "stoicism_control_2"
    text := "You have power over your mind – not outside events. Realize this, and you will find strength."
    author := "Marcus Aurelius", tradition := "Stoicism", category := "Control" },
  { id := "stoicism_wisdom"
    text := "The only true wisdom is in knowing you know nothing."
    author := "Socrates", tradition := "Stoicism", category := "Wisdom" },
  { id := "stoicism_justice"
    text := "Justice means minding one's own business and not meddling with other men's concerns."
    author := "Plato", tradition := "Stoicism", category := "Justice" },
  { id := "stoicism_excellence"
    text := "Excellence is never an accident. It is always the result of high intention, sincere effort, and intelligent execution."
    author := "Aristotle", tradition := "Stoicism", category := "Excellence" },
  { id := "stoicism_freedom"
    text := "Freedom is the only worthy goal in life. It is won by disregarding things that lie beyond our control."
    author := "Epictetus", tradition := "Stoicism", category := "Freedom" },
  { id := "stoicism_life"
    text := "Life is long if you know how to use it."
    author := "Seneca", tradition := "Stoicism", category := "Life" },
  { id := "hinduism_karma"
    text := "As you sow, so shall you reap."
    author := "Krishna", tradition := "Hinduism", category := "Karma" },
  { id := "hinduism_self"
    text := "The greatest meditation is a mind that lets go."
    author := "Ramana Maharshi", tradition := "Hinduism", category := "Meditation" },
  { id := "hinduism_strength"
    text := "Strength is life, weakness is death."
    author := "Swami Vivekananda", tradition := "Hinduism", category := "Strength" },
  { id := "hinduism_awareness"
    text := "Awareness is the greatest agent for change."
    author := "Osho", tradition := "Hinduism", category := "Awareness" },
  { id := "hinduism_truth"
    text := "Truth is a pathless land."
    author := "Jiddu Krishnamurti", tradition := "Hinduism", category := "Truth" },
  { id := "hinduism_peace"
    text := "Peace is not something you wish for; it is something you make, something you do, something you are."
    author := "Paramahansa Yogananda", tradition := "Hinduism", category := "Peace" },
  { id := "hinduism_harmony"
    text := "Harmony is the secret of life."
    author := "Sri Chinmoy", tradition := "Hinduism", category := "Harmony" },
  { id := "indigenous_wisdom_environment"
    text := "You cannot protect the environment unless you empower people, you inform them, and you help them understand that these resources are their own, that they must protect them."
    author := "Wangari Maathai", tradition := "Indigenous Wisdom", category := "Environment" },
  { id := "indigenous_wisdom_story"
    text := "The single story creates stereotypes, and the problem with stereotypes is not that they are untrue, but that they are incomplete."
    author := "Chimamanda Ngozi Adichie", tradition := "Indigenous Wisdom", category := "Story" },
  { id := "mindful_tech_innovation"
    text := "Innovation distinguishes between a leader and a follower."
    author := "Steve Jobs", tradition := "Mindful Tech", category := "Innovation" },
  { id := "mindful_tech_future"
    text := "The future belongs to those who believe in the beauty of their dreams."
    author := "Bill Gates", tradition := "Mindful Tech", category := "Future" },
  { id := "mindful_tech_imagination"
    text := "Imagination is more important than knowledge."
    author := "Albert Einstein", tradition := "Mindful Tech", category := "Imagination" },
  { id := "social_justice_courage"
    text := "I've learned that people will forget what you said, people will forget what you did, but people will never forget how you made them feel."
    author := "Maya Angelou", tradition := "Social Justice", category := "Courage" },
  { id := "social_justice_self_love"
    text := "Caring for myself is not self-indulgence, it is self-preservation, and that is an act of political warfare."
    author := "Audre Lorde", tradition := "Social Justice", category := "Self-Love" },
  { id := "social_justice_love"
    text := "Love is an action, never simply a feeling."
    author := "bell hooks", tradition := "Social Justice", category := "Love" },
  { id := "social_justice_equality"
    text := "A feminist is anyone who recognizes the equality and full humanity of women and men."
    author := "Gloria Steinem", tradition := "Social Justice", category := "Equality" },
  { id := "social_justice_humanity"
    text := "The function of freedom is to free someone else."
    author := "Toni Morrison", tradition := "Social Justice", category := "Humanity" },
  { id := "social_justice_justice"
    text := "The most common way people give up their power is by thinking they don't have any."
    author := "Alice Walker", tradition := "Social Justice", category := "Justice" },
  { id := "social_justice_education"
    text := "One child, one teacher, one book, one pen can change the world."
    author := "Malala Yousafzai", tradition := "Social Justice", category := "Education" },
  { id := "social_justice_peace"
    text := "Peace is not the absence of conflict, but the ability to cope with it."
    author := "Aung San Suu Kyi", tradition := "Social Justice", category := "Peace" },
  { id := "social_justice_voice"
    text := "The most important single ingredient in the formula of success is knowing how to get along with people."
    author := "Shirin Ebadi", tradition := "Social Justice", category := "Voice" },
  { id := "social_justice_truth"
    text := "There is no greater agony than bearing an untold story inside you."
    author := "Zora Neale Hurston", tradition := "Social Justice", category := "Truth" },
  { id := "social_justice_activism"
    text := "The struggle for justice is a marathon, not a sprint."
    author := "Rigoberta Menchú", tradition := "Social Justice", category := "Activism" },
  { id := "social_justice_writing"
    text := "Writing is a form of activism."
    author := "Arundhati Roy", tradition := "Social Justice", category := "Writing" }]

theorem initialQuotes_ne_nil : initialQuotes ≠ [] := List.cons_ne_nil _ _

end MotiAI
